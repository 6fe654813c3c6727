import Daichod.Rpc.Effect

/-!
# Daichod.Rpc.Verdicts

What validation can throw. Every check of a request against the book is a verdict on the
request (`isDeterministicVerdict`), so what a handler throws before its edit is recorded,
except that no book is open. In particular no handler ever throws `READ_ONLY_BOOK`.

## Proof shape

`Throws P` says that a check returns or throws an error with the property `P`. It is a rule for
each way of composing checks, so a handler is gone through line by line: `bind` for a sequence, a
lemma for each check it makes.
-/

namespace Daichod

/-- A computation throws nothing but what satisfies `P`. -/
def Throws {ε α : Type} (P : ε → Prop) (x : Except ε α) : Prop := ∀ e, x = .error e → P e

section Throws

variable {ε α β : Type} {P : ε → Prop}

/-- A check that returns throws nothing. -/
theorem throws_ok (a : α) : Throws P (.ok a) := by
  intro e he
  cases he

/-- A check that throws throws that. -/
theorem throws_error {e : ε} (h : P e) : Throws P (.error e : Except ε α) := by
  intro e' he
  cases he
  exact h

/-- What comes after a step may rely on what it returned. -/
theorem Throws.bind_ok {x : Except ε α} {f : α → Except ε β} (hx : Throws P x)
    (hf : ∀ a, x = .ok a → Throws P (f a)) : Throws P (x >>= f) := by
  intro e he
  cases x with
  | error e' =>
    cases he
    exact hx e rfl
  | ok a => exact hf a rfl e he

/-- **A sequence of checks** throws what one of them throws. -/
theorem Throws.bind {x : Except ε α} {f : α → Except ε β} (hx : Throws P x)
    (hf : ∀ a, Throws P (f a)) : Throws P (x >>= f) := hx.bind_ok fun a _ => hf a

end Throws

/-- A verdict on the request. -/
def ShimError.Verdict (e : ShimError) : Prop := isDeterministicVerdict e.code = true

/-- A condition that fails is thrown with the code it is given. -/
theorem throws_ensure {p : Prop} [Decidable p] {code : ErrorCode} {message context : String}
    (h : isDeterministicVerdict code = true) :
    Throws ShimError.Verdict (ensure p code message context) := by
  unfold ensure
  split
  · exact throws_ok _
  · exact throws_error h

section Checks

variable [Engine] {book : Book}

/-- A text that is no GUID. -/
theorem throws_stringToGuid (text context : String) :
    Throws ShimError.Verdict (stringToGuid text context) := by
  unfold stringToGuid
  split
  · exact throws_ok _
  · exact throws_error rfl

omit [Engine] in
/-- An amount without a positive denominator. -/
theorem throws_numericFromProto (numeric : Shim.Numeric) (context : String) :
    Throws ShimError.Verdict (numericFromProto numeric context) := by
  unfold numericFromProto
  split
  · exact throws_error rfl
  · exact throws_ok _

omit [Engine] in
/-- A date that is none. -/
theorem throws_dateFromProto (date : Shim.Date) (context : String) :
    Throws ShimError.Verdict (dateFromProto date context) := by
  unfold dateFromProto
  split
  · exact throws_error rfl
  · dsimp only
    split
    · exact throws_ok _
    · exact throws_error rfl

/-- A commodity the book does not have. -/
theorem throws_findCommodity (id : Shim.CommodityId) (context : String) :
    Throws ShimError.Verdict (findCommodity book id context) := by
  unfold findCommodity
  split
  · exact throws_ok _
  · exact throws_error rfl

/-- An account the book does not have. -/
theorem throws_findAccount (guid context : String) :
    Throws ShimError.Verdict (findAccount book guid context) := by
  refine (throws_stringToGuid guid context).bind fun parsed => ?_
  split
  · exact throws_ok _
  · exact throws_error rfl

/-- A transaction the book does not have. -/
theorem throws_findTransaction (guid context : String) :
    Throws ShimError.Verdict (findTransaction book guid context) := by
  refine (throws_stringToGuid guid context).bind fun parsed => ?_
  split
  · exact throws_ok _
  · exact throws_error rfl

omit [Engine] in
/-- An account type the engine does not know. -/
theorem throws_accountTypeFromProto (type : Shim.AccountType) (context : String) :
    Throws ShimError.Verdict (accountTypeFromProto type context) := by
  cases type <;> first | exact throws_ok _ | exact throws_error rfl

omit [Engine] in
/-- A reconcile state that clients may not set. -/
theorem throws_reconcileStateFromProto (state : Shim.ReconcileState) (context : String) :
    Throws ShimError.Verdict (reconcileStateFromProto state context) := by
  cases state <;> first | exact throws_ok _ | exact throws_error rfl

omit [Engine] in
/-- The root account, where it may not be used. -/
theorem throws_checkIsNotRoot (account root : Guid) (context : String) :
    Throws ShimError.Verdict (checkIsNotRoot account root context) := by
  unfold checkIsNotRoot
  split
  · exact throws_error rfl
  · exact throws_ok _

/-! ### Transaction plans

Planning goes through the splits in order and stops at the first that fails a check. -/

/-- One split. -/
theorem throws_planSplit (engineSplits : Option (List Split)) (claimed : List String)
    (field : String) (spec : Shim.Split) :
    Throws ShimError.Verdict (planSplit book engineSplits claimed field spec) := by
  have hexisting : Throws ShimError.Verdict (findExisting engineSplits claimed field spec) := by
    -- The checks of a split in the order of the source: its GUID, its account, its amounts, its
    -- state.
    unfold findExisting
    split
    · exact throws_ok _
    · split
      · exact throws_error rfl
      · split
        · exact throws_error rfl
        · split
          · exact throws_error rfl
          · exact throws_ok _
  have hreconcile : Throws ShimError.Verdict (planReconcile spec.reconcileState field) := by
    unfold planReconcile
    split
    · exact throws_ok _
    · exact throws_reconcileStateFromProto _ _
  refine hexisting.bind fun _ => ?_
  refine (throws_findAccount _ _).bind fun _ => ?_
  refine (throws_numericFromProto _ _).bind fun _ => ?_
  refine (throws_numericFromProto _ _).bind fun _ => ?_
  exact hreconcile.bind fun _ => throws_ok _

/-- All splits, and their sum. -/
theorem throws_planSplits (engineSplits : Option (List Split)) (specs : List Shim.Split) (i : ℕ)
    (claimed : List String) (sum : GncNumeric) :
    Throws ShimError.Verdict (planSplits book engineSplits i claimed sum specs) := by
  induction specs generalizing i claimed sum with
  | nil => exact throws_ok _
  | cons spec specs ih =>
    unfold planSplits
    refine (throws_planSplit _ _ _ _).bind fun _ => ?_
    refine (throws_ensure rfl).bind fun _ => ?_
    exact (ih _ _ _).bind fun _ => throws_ok _

/-- The whole transaction. -/
theorem throws_planTransaction (now : Int64) (spec : Shim.Transaction)
    (existing : Option Transaction) :
    Throws ShimError.Verdict (planTransaction now book spec existing) := by
  have hcurrency : Throws ShimError.Verdict (planCurrency book spec) := by
    unfold planCurrency
    split
    · exact throws_error rfl
    · exact throws_findCommodity _ _
  have hdate : Throws ShimError.Verdict (planPostDate spec) := by
    unfold planPostDate
    split
    · exact throws_error rfl
    · exact throws_dateFromProto _ _
  refine hcurrency.bind fun _ => ?_
  refine (throws_ensure rfl).bind fun _ => ?_
  refine hdate.bind fun _ => ?_
  refine (throws_ensure rfl).bind fun _ => ?_
  refine (throws_planSplits _ _ _ _ _).bind fun _ => ?_
  exact (throws_ensure rfl).bind fun _ => throws_ok _

/-! ### Handlers -/

/-- A verdict, or no answer at all: `CheckNoCycle` can go round for ever. -/
def Exn.VerdictOrHang : Exn → Prop
  | .shim e => e.Verdict
  | .killed => True
  | _ => False

omit [Engine] in
/-- A check within a plan. Only the search for a cycle can fail to end. -/
theorem throws_check {α : Type} {v : Except ShimError α} (h : Throws ShimError.Verdict v) :
    Throws Exn.VerdictOrHang (check v) := by
  intro e he
  cases v with
  | ok a => cases he
  | error s =>
    cases he
    exact h s rfl

omit [Engine] in
/-- What is checked before the book is looked at. -/
theorem Mutation.throws_precheck (m : Mutation) : Throws ShimError.Verdict m.precheck := by
  cases m with
  | createAccount request =>
    exact (throws_ensure rfl).bind fun _ => (throws_ensure rfl).bind fun _ => throws_ensure rfl
  | updateAccount request => exact (throws_ensure rfl).bind fun _ => throws_ensure rfl
  | postTransaction request => exact throws_ensure rfl
  | updateTransaction request => exact throws_ensure rfl
  | addPrice request => exact throws_ensure rfl
  | deleteAccount request => exact throws_ok _
  | setReconcileInfo request => exact throws_ok _
  | deleteTransaction request => exact throws_ok _

/-- **What planning can throw**, RPC by RPC, in the order of its checks. -/
theorem Mutation.throws_plan (m : Mutation) (fate : Fate) :
    Throws Exn.VerdictOrHang (m.plan fate book) := by
  cases m with
  | createAccount request =>
    refine (throws_check (throws_findAccount _ _)).bind fun _ => ?_
    refine (throws_check (throws_accountTypeFromProto _ _)).bind fun _ => ?_
    exact (throws_check (throws_findCommodity _ _)).bind fun _ => throws_ok _
  | updateAccount request =>
    have hcycle : ∀ account parent context,
        Throws Exn.VerdictOrHang (noCycle book account parent context) := by
      intro account parent context
      unfold noCycle
      split
      · exact throws_error rfl
      · exact throws_ok _
      · exact throws_error trivial
    refine (throws_check (throws_findAccount _ _)).bind fun _ => ?_
    refine (throws_check (throws_checkIsNotRoot _ _ _)).bind fun _ => ?_
    refine (throws_check (throws_accountTypeFromProto _ _)).bind fun _ => ?_
    refine (throws_check (throws_findCommodity _ _)).bind fun _ => ?_
    refine (throws_check (throws_ensure rfl)).bind fun _ => ?_
    refine (throws_check (throws_findAccount _ _)).bind fun _ => ?_
    exact (hcycle _ _ _).bind fun _ => throws_ok _
  | deleteAccount request =>
    refine (throws_check (throws_findAccount _ _)).bind fun _ => ?_
    refine (throws_check (throws_checkIsNotRoot _ _ _)).bind fun _ => ?_
    exact (throws_check (throws_ensure rfl)).bind fun _ => throws_ok _
  | setReconcileInfo request =>
    refine (throws_check (throws_findAccount _ _)).bind fun _ => ?_
    refine (throws_check ?_).bind fun _ => ?_
    · cases request.lastDate with
      | none => exact throws_error rfl
      | some date => exact throws_ok _
    · exact (throws_check (throws_dateFromProto _ _)).bind fun _ => throws_ok _
  | postTransaction request =>
    exact (throws_check (throws_planTransaction _ _ _)).bind fun _ => throws_ok _
  | updateTransaction request =>
    refine (throws_check (throws_findTransaction _ _)).bind fun _ => ?_
    exact (throws_check (throws_planTransaction _ _ _)).bind fun _ => throws_ok _
  | deleteTransaction request =>
    exact (throws_check (throws_findTransaction _ _)).bind fun _ => throws_ok _
  | addPrice request =>
    refine (throws_check (throws_findCommodity _ _)).bind fun _ => ?_
    refine (throws_check (throws_findCommodity _ _)).bind fun _ => ?_
    refine (throws_check (throws_ensure rfl)).bind fun _ => ?_
    refine (throws_check ?_).bind fun _ => ?_
    · cases request.price.date with
      | none => exact throws_error rfl
      | some date => exact throws_ok _
    · refine (throws_check (throws_dateFromProto _ _)).bind fun _ => ?_
      exact (throws_check (throws_numericFromProto _ _)).bind fun _ => throws_ok _

end Checks

/-- **What validation throws**: a verdict on the request, that no book is open, or nothing
because it never ends. -/
theorem Mutation.validated_error [Wire] [Engine] {m : Mutation} {fate : Fate} {w : World} {e : Exn}
    (h : m.validated fate w = .error e) :
    e.VerdictOrHang ∨ (w.session = none ∧ e = .shim ⟨.bookNotOpen, "no book is open", ""⟩) := by
  unfold validated at h
  cases hpre : m.precheck with
  | error s =>
    rw [hpre] at h
    cases h
    exact Or.inl (m.throws_precheck s hpre)
  | ok u =>
    rw [hpre] at h
    unfold openBookCheck at h
    cases hs : w.session with
    | none =>
      right
      simp only [hs, Option.isNone_none, if_true] at h
      cases h
      exact ⟨rfl, rfl⟩
    | some s =>
      left
      simp only [hs, Option.isNone_some] at h
      exact m.throws_plan fate e h

end Daichod
