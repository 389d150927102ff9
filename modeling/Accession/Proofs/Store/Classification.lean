import Accession.Batch.Retry
import Accession.Store.Error
set_option autoImplicit false

namespace Accession.Store

open Text.Integer (read32?)

theorem occurs_iff_infix (word cs : List Char) : occurs word cs = true ↔ word <:+: cs := by
  induction cs with
  | nil => rw [occurs, List.isEmpty_iff, List.infix_nil]
  | cons c cs ih =>
    rw [occurs, Bool.or_eq_true, ih, List.isPrefixOf_iff_prefix, List.infix_cons_iff]

theorem and_octet_eq_iff {n : Int} {octet : Nat} (h : octet < 256) :
    BitVec.ofInt 32 n &&& 0xff = BitVec.ofNat 32 octet ↔ n % 256 = octet := by
  rw [← BitVec.toNat_inj, BitVec.toNat_and, BitVec.toNat_ofInt, BitVec.toNat_ofNat]
  have hmask : (0xff : BitVec 32).toNat = 2 ^ 8 - 1 := by decide
  rw [hmask, Nat.and_two_pow_sub_one_eq_mod]
  omega

namespace DatabaseError

variable {d : DatabaseError}

/-- The code is an integer of 32 bits that ends in these eight bits. -/
def Coded (d : DatabaseError) (octet : BitVec 32) : Prop :=
  ∃ code n, d.code = some code ∧ read32? code = some n ∧ BitVec.ofInt 32 n &&& 0xff = octet

theorem primary?_eq_some_iff (octet : Nat) (h : octet < 256) :
    d.primary? = some (octet : Int) ↔ d.Coded (BitVec.ofNat 32 octet) := by
  rw [primary?, Coded]
  constructor
  · intro hprimary
    obtain ⟨n, hn, hoctet⟩ := Option.map_eq_some_iff.1 hprimary
    obtain ⟨code, hcode, hread⟩ := Option.bind_eq_some_iff.1 hn
    exact ⟨code, n, hcode, hread, (and_octet_eq_iff h).2 hoctet⟩
  · rintro ⟨code, n, hcode, hread, hoctet⟩
    rw [hcode, Option.bind_some, hread, Option.map_some, (and_octet_eq_iff h).1 hoctet]

/-- Another connection has the database, or the table. -/
def Busy (d : DatabaseError) : Prop :=
  d.Coded 5 ∨ d.Coded 6

/-- The code or the database itself says that a constraint is violated. -/
def Violation (d : DatabaseError) : Prop :=
  d.Coded 19 ∨ d.violated ∈ [.unique, .foreignKey, .notNull, .check]

/-- A null where none may be, of which the code does not say that it violates a constraint. -/
def Unmarked (d : DatabaseError) : Prop :=
  d.violated = .notNull ∧ ¬d.Coded 19

/-- A violation that is not of this kind. -/
def Refusing (d : DatabaseError) : Prop :=
  d.Violation ∧ ¬d.Unmarked

theorem busy_iff : (d.primary? == some 5 || d.primary? == some 6) = true ↔ d.Busy := by
  have hbusy : d.primary? = some 5 ↔ d.Coded 5 := primary?_eq_some_iff 5 (by decide)
  have hlocked : d.primary? = some 6 ↔ d.Coded 6 := primary?_eq_some_iff 6 (by decide)
  rw [Bool.or_eq_true, beq_iff_eq, beq_iff_eq, hbusy, hlocked, Busy]

theorem refusing_iff : (d.primary? == some 19 || d.violated.refuses) = true ↔ d.Refusing := by
  have hcoded : d.primary? = some 19 ↔ d.Coded 19 := primary?_eq_some_iff 19 (by decide)
  rw [Bool.or_eq_true, beq_iff_eq, hcoded, Refusing, Violation, Unmarked]
  cases hviolated : d.violated <;> simp [Constraint.refuses]

end DatabaseError

namespace Error

variable {e : Error}

/-- The database was busy. -/
def Contended (e : Error) : Prop :=
  ∃ d, e = .database d ∧ d.Busy

/-- The database was not busy and refused the record. -/
def Refused (e : Error) : Prop :=
  ∃ d, e = .database d ∧ ¬d.Busy ∧ d.Refusing

/-- The text says so, or no connection was to be had. -/
def Locked (e : Error) : Prop :=
  lockedText <:+: e.message.toList ∨ e = .poolTimedOut

theorem classify_contended {d : DatabaseError} (h : d.Busy) (subject : String) :
    (database d).classify subject = .conflict d.message := by
  rw [classify, if_pos (DatabaseError.busy_iff.2 h)]

theorem classify_refused {d : DatabaseError} (hbusy : ¬d.Busy) (h : d.Refusing)
    (subject : String) : (database d).classify subject = .persistence subject d.message := by
  rw [classify, if_neg (mt DatabaseError.busy_iff.1 hbusy), if_pos (DatabaseError.refusing_iff.2 h)]

theorem classify_byText (hbusy : ¬e.Contended) (hrefused : ¬e.Refused) (subject : String) :
    e.classify subject = e.byText := by
  cases e with
  | database d =>
    have hd : ¬d.Busy := fun h => hbusy ⟨d, rfl, h⟩
    have hd' : ¬d.Refusing := fun h => hrefused ⟨d, rfl, hd, h⟩
    rw [classify, if_neg (mt DatabaseError.busy_iff.1 hd),
      if_neg (mt DatabaseError.refusing_iff.1 hd')]
  | rowNotFound | poolTimedOut | poolClosed | workerCrashed | protocol _ | columnNotFound _ | io _
  | other _ => rfl

theorem locked_iff :
    (occurs lockedText e.message.toList || e == .poolTimedOut) = true ↔ e.Locked := by
  rw [Bool.or_eq_true, occurs_iff_infix, beq_iff_eq, Locked]

theorem byText_locked (h : e.Locked) : e.byText = .conflict e.message := by
  rw [byText, if_pos (locked_iff.2 h)]

theorem byText_other (h : ¬e.Locked) : e.byText = .storage e.message := by
  rw [byText, if_neg (mt locked_iff.1 h)]

/-- What a failure comes to, in the order in which it is asked. -/
theorem classify_cases (e : Error) (subject : String) :
    (∃ d, e = .database d ∧ d.Busy ∧ e.classify subject = .conflict d.message) ∨
      (∃ d, e = .database d ∧ ¬d.Busy ∧ d.Refusing ∧
        e.classify subject = .persistence subject d.message) ∨
      (¬e.Contended ∧ ¬e.Refused ∧ e.Locked ∧ e.classify subject = .conflict e.message) ∨
      (¬e.Contended ∧ ¬e.Refused ∧ ¬e.Locked ∧ e.classify subject = .storage e.message) := by
  by_cases hbusy : e.Contended
  · obtain ⟨d, rfl, hd⟩ := hbusy
    exact .inl ⟨d, rfl, hd, classify_contended hd subject⟩
  · by_cases hrefused : e.Refused
    · obtain ⟨d, rfl, hd, hrefusing⟩ := hrefused
      exact .inr (.inl ⟨d, rfl, hd, hrefusing, classify_refused hd hrefusing subject⟩)
    · have hclassify := classify_byText hbusy hrefused subject
      by_cases hlocked : e.Locked
      · exact .inr (.inr (.inl ⟨hbusy, hrefused, hlocked,
          hclassify.trans (byText_locked hlocked)⟩))
      · exact .inr (.inr (.inr ⟨hbusy, hrefused, hlocked,
          hclassify.trans (byText_other hlocked)⟩))

theorem classify_eq_conflict_iff {subject message : String} :
    e.classify subject = .conflict message ↔
      (∃ d, e = .database d ∧ d.Busy ∧ message = d.message) ∨
        (¬e.Contended ∧ ¬e.Refused ∧ e.Locked ∧ message = e.message) := by
  constructor
  · intro h
    obtain ⟨d, he, hd, hc⟩ | ⟨d, -, -, -, hc⟩ | ⟨hbusy, hrefused, hlocked, hc⟩ | ⟨-, -, -, hc⟩ :=
      classify_cases e subject
    · injection hc.symm.trans h with hmessage
      exact .inl ⟨d, he, hd, hmessage.symm⟩
    · cases hc.symm.trans h
    · injection hc.symm.trans h with hmessage
      exact .inr ⟨hbusy, hrefused, hlocked, hmessage.symm⟩
    · cases hc.symm.trans h
  · rintro (⟨d, rfl, hd, rfl⟩ | ⟨hbusy, hrefused, hlocked, rfl⟩)
    · exact classify_contended hd subject
    · rw [classify_byText hbusy hrefused, byText_locked hlocked]

theorem classify_eq_persistence_iff {subject subject' message : String} :
    e.classify subject = .persistence subject' message ↔
      ∃ d, e = .database d ∧ ¬d.Busy ∧ d.Refusing ∧ subject' = subject ∧ message = d.message := by
  constructor
  · intro h
    obtain ⟨d, -, -, hc⟩ | ⟨d, he, hd, hrefusing, hc⟩ | ⟨-, -, -, hc⟩ | ⟨-, -, -, hc⟩ :=
      classify_cases e subject
    · cases hc.symm.trans h
    · injection hc.symm.trans h with hsubject hmessage
      exact ⟨d, he, hd, hrefusing, hsubject.symm, hmessage.symm⟩
    · cases hc.symm.trans h
    · cases hc.symm.trans h
  · rintro ⟨d, rfl, hd, hrefusing, rfl, rfl⟩
    exact classify_refused hd hrefusing subject'

theorem classify_eq_storage_iff {subject message : String} :
    e.classify subject = .storage message ↔
      ¬e.Contended ∧ ¬e.Refused ∧ ¬e.Locked ∧ message = e.message := by
  constructor
  · intro h
    obtain ⟨d, -, -, hc⟩ | ⟨d, -, -, -, hc⟩ | ⟨-, -, -, hc⟩ | ⟨hbusy, hrefused, hlocked, hc⟩ :=
      classify_cases e subject
    · cases hc.symm.trans h
    · cases hc.symm.trans h
    · cases hc.symm.trans h
    · injection hc.symm.trans h with hmessage
      exact ⟨hbusy, hrefused, hlocked, hmessage.symm⟩
  · rintro ⟨hbusy, hrefused, hlocked, rfl⟩
    rw [classify_byText hbusy hrefused, byText_other hlocked]

theorem isRetryable_classify_iff {subject : String} :
    (e.classify subject).isRetryable = true ↔ ¬e.Refused := by
  obtain ⟨d, rfl, hd, hc⟩ | ⟨d, rfl, hd, hrefusing, hc⟩ | ⟨-, hrefused, -, hc⟩ |
    ⟨-, hrefused, -, hc⟩ := classify_cases e subject
  · refine iff_of_true (by rw [hc]; rfl) ?_
    rintro ⟨d', hd', hbusy, -⟩
    cases hd'
    exact hbusy hd
  · exact iff_of_false (by rw [hc]; exact Bool.false_ne_true)
      (not_not_intro ⟨d, rfl, hd, hrefusing⟩)
  · exact iff_of_true (by rw [hc]; rfl) hrefused
  · exact iff_of_true (by rw [hc]; rfl) hrefused

theorem classify_unread {code : String} (h : read32? code = none) (d : DatabaseError)
    (subject : String) :
    (database { d with code := some code }).classify subject =
      (database { d with code := none }).classify subject := by
  have hprimary : DatabaseError.primary? { d with code := some code } =
      DatabaseError.primary? { d with code := none } := by
    rw [DatabaseError.primary?, DatabaseError.primary?, Option.bind_some, h, Option.bind_none]
  rw [classify, classify, hprimary]
  rfl

end Error

theorem failed_eq_retry_iff {ω : Type} {storage : Batch.Storage ω} {created : Batch.Created}
    {error : Batch.ImportError} :
    (∃ e, Batch.failed storage created error = .retry e) ↔
      storage.transactional = true ∧ error.isRetryable = true := by
  rw [Batch.failed]
  cases storage.transactional <;> cases error.isRetryable <;> simp

/-- For every failure, whatever its code, its text and the constraint that it names: a database that
was busy is a conflict; else a violation of a constraint is laid to the record, and an attempt that
it ends is never made again; else a text that says that the database is locked, or a connection that
was waited for in vain, is a conflict; all the rest is a failure of the storage. A code that is no
integer of 32 bits says nothing, and a null where none may be counts as a violation if the code says
so. -/
theorem failures_classified (e : Error) (subject : String) :
    (∀ message, e.classify subject = .conflict message ↔
      (∃ d, e = .database d ∧ d.Busy ∧ message = d.message) ∨
        (¬e.Contended ∧ ¬e.Refused ∧ e.Locked ∧ message = e.message)) ∧
    (∀ subject' message, e.classify subject = .persistence subject' message ↔
      ∃ d, e = .database d ∧ ¬d.Busy ∧ d.Refusing ∧ subject' = subject ∧ message = d.message) ∧
    (∀ message, e.classify subject = .storage message ↔
      ¬e.Contended ∧ ¬e.Refused ∧ ¬e.Locked ∧ message = e.message) ∧
    (∀ {ω : Type} (storage : Batch.Storage ω) created,
      (∃ e', Batch.failed storage created (e.classify subject) = .retry e') ↔
        storage.transactional = true ∧ ¬e.Refused) ∧
    (∀ code (d : DatabaseError), read32? code = none →
      (Error.database { d with code := some code }).classify subject =
        (Error.database { d with code := none }).classify subject) := by
  refine ⟨fun message => Error.classify_eq_conflict_iff,
    fun subject' message => Error.classify_eq_persistence_iff,
    fun message => Error.classify_eq_storage_iff, ?_, ?_⟩
  · intro ω storage created
    rw [failed_eq_retry_iff, Error.isRetryable_classify_iff]
  · intro code d hcode
    exact Error.classify_unread hcode d subject

/-- Of `-251` the eight lowest bits are those of 5, which outweighs the constraint; a code that is
spelled out is none, so there the constraint decides. -/
theorem failures_classified_coded :
    (Error.database ⟨some "-251", "busy", .unique, "busy"⟩).classify "a" = .conflict "busy" ∧
    read32? "BUSY" = none ∧
    (Error.database ⟨some "BUSY", "busy", .unique, "busy"⟩).classify "a" =
      .persistence "a" "busy" := by
  have hunread : read32? "BUSY" = none := by decide
  have hnone := (failures_classified .poolTimedOut "a").2.2.2.2 "BUSY"
    ⟨some "BUSY", "busy", .unique, "busy"⟩ hunread
  refine ⟨((failures_classified _ "a").1 "busy").2 (.inl ⟨_, rfl, .inl ?_, rfl⟩), hunread,
    hnone.trans (by decide)⟩
  exact ⟨"-251", -251, rfl, by decide, by decide⟩

def nullReport : DatabaseError :=
  ⟨none, "NOT NULL constraint failed: subjects.title", .notNull,
    "NOT NULL constraint failed: subjects.title"⟩

/-- What the database calls a violation is not laid to the record, and the import is attempted
again. -/
theorem null_not_refused :
    nullReport.Violation ∧ ¬nullReport.Busy ∧
    (Error.database nullReport).classify "a" =
      .storage "error returned from database: NOT NULL constraint failed: subjects.title" ∧
    ((Error.database nullReport).classify "a").isRetryable = true := by
  have hcode : ∀ octet, ¬nullReport.Coded octet := by
    rintro octet ⟨code, n, hcode, -⟩
    cases hcode
  exact ⟨.inr (by decide), not_or.2 ⟨hcode 5, hcode 6⟩, by decide, by decide⟩

end Accession.Store
