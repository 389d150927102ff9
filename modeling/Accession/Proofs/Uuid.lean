import Accession.Uuid
set_option autoImplicit false

namespace Accession.Uuid

theorem digit?_digitChar (d : Fin 16) : digit? (digitChar d) = some d := by
  revert d
  decide

theorem mapM_digit? (ds : List (Fin 16)) : (ds.map digitChar).mapM digit? = some ds := by
  induction ds with
  | nil => rfl
  | cons d ds ih =>
    rw [List.map_cons, List.mapM_cons, digit?_digitChar, ih]
    rfl

theorem ungroup?_group (ns : List Nat) (cs : List Char) (h : ns.foldr (· + ·) 0 ≤ cs.length) :
    ungroup? ns (group ns cs) = some cs := by
  fun_induction group ns cs with
  | case1 n m ns cs ih =>
    rw [List.foldr_cons] at h
    have htake : (cs.take n).length = n := List.length_take_of_le (by omega)
    have hdrop : (cs.take n ++ '-' :: group (m :: ns) (cs.drop n)).drop n
        = '-' :: group (m :: ns) (cs.drop n) := List.drop_left' htake
    rw [ungroup?, hdrop, List.take_left' htake]
    simp only
    rw [ih (by rw [List.length_drop]; omega), Option.map_some, List.take_append_drop]
  | case2 ns cs hns =>
    rw [ungroup?]
    exact hns

theorem length_group (n : Nat) (ns : List Nat) (cs : List Char) :
    (group (n :: ns) cs).length = cs.length + ns.length := by
  induction ns generalizing n cs with
  | nil => rfl
  | cons m ns ih =>
    rw [group, List.length_append, List.length_cons, ih, List.length_take, List.length_drop,
      List.length_cons]
    omega

theorem parse?_render (u : Uuid) : parse? u.render = some u := by
  have hdigits : (u.digits.map digitChar).length = 32 := by
    rw [List.length_map, u.length_digits]
  have hlength : (group groups (u.digits.map digitChar)).length = 36 := by
    rw [groups, length_group, hdigits]
    rfl
  have hungroup : ungroup? groups (group groups (u.digits.map digitChar))
      = some (u.digits.map digitChar) := ungroup?_group groups _ (by rw [hdigits]; decide)
  have hread : ofDigits? (u.digits.map digitChar) = some u := by
    rw [ofDigits?, mapM_digit?, Option.bind_some, dif_pos u.length_digits]
  unfold parse?
  simp only [render, String.toList_ofList, hlength]
  rw [if_neg (by decide), if_pos (by decide), ofGroups?, hungroup, Option.bind_some, hread]

end Accession.Uuid
