import Daichod.History
import Daichod.Reference
import Mathlib.Data.Nat.Digits.Lemmas

/-!
# Daichod.Properties.Spellings

**The spellings of a UUID** (`respelled`). `ValidateMutationId` takes hexadecimal digits in
either case, so that the accepted spellings of one UUID are those which differ in the case of
letters (`uuidOf_eq_iff`). "The journal keys on this string": the outcome on record under one
spelling answers the calls under that spelling, and no others.

## Proof shape

An accepted id is 32 digits with dashes between. Two of them have the same digits exactly if their
lower case texts are the same, one digit at a time (`uuidDigits_eq_iff`). The other half is about
rows of the journal: a row is found under the string it was written under, and `Journal.Sound`
says who wrote it.
-/

namespace Daichod

/-! ### What a mutation id denotes

The UUID of an accepted id is the number that its digits spell. -/

/-- The value of a hexadecimal digit. -/
def hexValue (c : Char) : ℕ :=
  if '0' ≤ c && c ≤ '9' then c.toNat - '0'.toNat
  else if 'a' ≤ c && c ≤ 'f' then c.toNat - 'a'.toNat + 10
  else c.toNat - 'A'.toNat + 10

/-- The digits of a text, without the dashes. -/
def uuidDigits (text : List Char) : List ℕ := (text.filter (· ≠ '-')).map hexValue

/-- The 128 bits an accepted mutation id denotes. -/
def uuidOf (mutationId : String) : ℕ := Nat.ofDigits 16 (uuidDigits mutationId.toList).reverse

/-- The digits that are accepted. -/
def xDigits : List Char := "0123456789abcdefABCDEF".toList

/-- No other character is one. -/
theorem mem_xDigits {c : Char} (h : isXDigit c = true) : c ∈ xDigits := by
  have hbound : c.toNat < 128 := by
    simp only [isXDigit, Bool.or_eq_true, Bool.and_eq_true, decide_eq_true_eq, Char.le_def,
      UInt32.le_iff_toNat_le] at h
    have h9 : '9'.val.toNat = 57 := rfl
    have hf : 'f'.val.toNat = 102 := rfl
    have hF : 'F'.val.toNat = 70 := rfl
    rw [Char.toNat]
    omega
  have htable : ∀ n < 128, isXDigit (Char.ofNat n) = true → Char.ofNat n ∈ xDigits := by
    decide +kernel
  have hchar : Char.ofNat c.toNat = c := Char.ofNat_toNat c
  have hmem := htable c.toNat hbound
  rw [hchar] at hmem
  exact hmem h

/-- A digit has one value below sixteen, is no dash, and has that value in either case. -/
theorem hexDigit_facts : ∀ c ∈ xDigits,
    hexValue c < 16 ∧ c ≠ '-' ∧ hexValue c.toLower = hexValue c := by
  have htable : xDigits.all (fun c => decide (hexValue c < 16 ∧ c ≠ '-' ∧
      hexValue c.toLower = hexValue c)) = true := by decide +kernel
  exact fun c hc => of_decide_eq_true (List.all_eq_true.mp htable c hc)

/-- Digits of one value differ in case only. -/
theorem hexValue_injective : ∀ c ∈ xDigits, ∀ d ∈ xDigits, hexValue c = hexValue d →
    c.toLower = d.toLower := by
  have htable : xDigits.all (fun c => xDigits.all fun d =>
      decide (hexValue c = hexValue d → c.toLower = d.toLower)) = true := by decide +kernel
  intro c hc d hd
  exact of_decide_eq_true (List.all_eq_true.mp (List.all_eq_true.mp htable c hc) d hd)

section Patterns

variable {pattern text text' : List Char}

/-- As many digits as the pattern has. -/
theorem length_uuidDigits (h : matchesPattern pattern text = true) :
    (uuidDigits text).length = (pattern.filter (· ≠ '-')).length := by
  induction pattern generalizing text with
  | nil =>
    cases text with
    | nil => rfl
    | cons c text => cases h
  | cons p pattern ih =>
    cases text with
    | nil => cases h
    | cons c text =>
      rw [matchesPattern, Bool.and_eq_true] at h
      obtain ⟨hc, hrest⟩ := h
      have hlength := ih hrest
      by_cases hp : p = '-'
      · rw [if_pos hp, beq_iff_eq] at hc
        simpa [uuidDigits, hp, hc] using hlength
      · rw [if_neg hp] at hc
        have hdash := (hexDigit_facts c (mem_xDigits hc)).2.1
        simpa [uuidDigits, hp, hdash] using hlength

/-- Each digit of an accepted id is one of base 16. -/
theorem uuidDigits_lt (h : matchesPattern pattern text = true) : ∀ d ∈ uuidDigits text, d < 16 := by
  induction pattern generalizing text with
  | nil =>
    cases text with
    | nil => simp [uuidDigits]
    | cons c text => cases h
  | cons p pattern ih =>
    cases text with
    | nil => cases h
    | cons c text =>
      rw [matchesPattern, Bool.and_eq_true] at h
      obtain ⟨hc, hrest⟩ := h
      have hlt := ih hrest
      by_cases hp : p = '-'
      · rw [if_pos hp, beq_iff_eq] at hc
        simpa [uuidDigits, hc] using hlt
      · rw [if_neg hp] at hc
        obtain ⟨hvalue, hdash, -⟩ := hexDigit_facts c (mem_xDigits hc)
        simpa [uuidDigits, hdash, hvalue] using hlt

/-- Texts of one pattern have the same digits when they are the same in lower case. -/
theorem uuidDigits_eq_iff (h : matchesPattern pattern text = true)
    (h' : matchesPattern pattern text' = true) :
    uuidDigits text = uuidDigits text' ↔ text.map Char.toLower = text'.map Char.toLower := by
  -- Both texts are read along the pattern: a dash in both, or a digit in both.
  induction pattern generalizing text text' with
  | nil =>
    cases text with
    | nil =>
      cases text' with
      | nil => exact iff_of_true rfl rfl
      | cons c' text' => cases h'
    | cons c text => cases h
  | cons p pattern ih =>
    cases text with
    | nil => cases h
    | cons c text =>
      cases text' with
      | nil => cases h'
      | cons c' text' =>
        rw [matchesPattern, Bool.and_eq_true] at h h'
        obtain ⟨hc, hrest⟩ := h
        obtain ⟨hc', hrest'⟩ := h'
        have hiff := ih hrest hrest'
        by_cases hp : p = '-'
        · rw [if_pos hp, beq_iff_eq] at hc hc'
          simpa [uuidDigits, hc, hc'] using hiff
        · rw [if_neg hp] at hc hc'
          have hmem := mem_xDigits hc
          have hmem' := mem_xDigits hc'
          obtain ⟨-, hdash, hlower⟩ := hexDigit_facts c hmem
          obtain ⟨-, hdash', hlower'⟩ := hexDigit_facts c' hmem'
          have hhead : hexValue c = hexValue c' ↔ c.toLower = c'.toLower := by
            refine ⟨hexValue_injective c hmem c' hmem', fun heq => ?_⟩
            rw [← hlower, ← hlower', heq]
          have hdigits : ∀ {d : Char} {rest : List Char}, d ≠ '-' →
              uuidDigits (d :: rest) = hexValue d :: uuidDigits rest := by
            intro d rest hd
            simp [uuidDigits, hd]
          rw [hdigits hdash, hdigits hdash', List.map_cons, List.map_cons, List.cons.injEq,
            List.cons.injEq, hhead, hiff]

end Patterns

section Accepted

variable {a b : String}

/-- An accepted mutation id. -/
def uuidPattern : List Char := "xxxxxxxx-xxxx-xxxx-xxxx-xxxxxxxxxxxx".toList

/-- An accepted id matches the pattern. -/
theorem matches_of_accepted (h : validateMutationId a = .ok ()) :
    matchesPattern uuidPattern a.toList = true := by
  unfold validateMutationId at h
  split at h
  · next hmatches => exact hmatches
  · cases h

/-- **The spellings of a UUID** differ in the case of letters, and in nothing else. -/
theorem uuidOf_eq_iff (ha : validateMutationId a = .ok ()) (hb : validateMutationId b = .ok ()) :
    uuidOf a = uuidOf b ↔ a.toList.map Char.toLower = b.toList.map Char.toLower := by
  have hma := matches_of_accepted ha
  have hmb := matches_of_accepted hb
  rw [← uuidDigits_eq_iff hma hmb, ← List.reverse_inj]
  refine ⟨fun heq => ?_, fun heq => by rw [uuidOf, uuidOf, heq]⟩
  refine Nat.ofDigits_inj_of_len_eq (by norm_num) ?_ (fun d hd => ?_) (fun d hd => ?_) heq
  · rw [List.length_reverse, List.length_reverse, length_uuidDigits hma, length_uuidDigits hmb]
  · exact uuidDigits_lt hma d (List.mem_reverse.mp hd)
  · exact uuidDigits_lt hmb d (List.mem_reverse.mp hd)

end Accepted

/-! ### One request under two spellings

The same request is sent again with another spelling of its id. What becomes of it depends on what
is on record under that spelling, and the first spelling does not come into it. -/

/-- The request with another mutation id. -/
def Mutation.withId (id : String) : Mutation → Mutation
  | .createAccount request => .createAccount { request with «meta» := ⟨id⟩ }
  | .updateAccount request => .updateAccount { request with «meta» := ⟨id⟩ }
  | .deleteAccount request => .deleteAccount { request with «meta» := ⟨id⟩ }
  | .setReconcileInfo request => .setReconcileInfo { request with «meta» := ⟨id⟩ }
  | .postTransaction request => .postTransaction { request with «meta» := ⟨id⟩ }
  | .updateTransaction request => .updateTransaction { request with «meta» := ⟨id⟩ }
  | .deleteTransaction request => .deleteTransaction { request with «meta» := ⟨id⟩ }
  | .addPrice request => .addPrice { request with «meta» := ⟨id⟩ }

/-- The respelled request has the other id. -/
@[simp] theorem Mutation.mutationId_withId (id : String) (m : Mutation) :
    (m.withId id).mutationId = id := by
  cases m <;> rfl

section Respelled

variable [Wire] [Engine]

/-- The call is applied, unless a call of the run under its very id has left an outcome, with
which it is answered then. -/
def Mutation.KeyedOnItsId (d₀ : Daemon) (es : List Event) (m : Mutation) (fate : Fate)
    (w : World) : Prop :=
  m.Applies fate w ∨ ∃ m' fate' w' outcome, Called d₀ es m' fate' w' ∧
    m'.mutationId = m.mutationId ∧ m'.Computed fate' w' outcome ∧ ¬m.Applies fate w ∧
      m.run fate w = liftValid (m.call.replay outcome) (m.journaled fate w)

/-- A call that looks its outcome up finds what calls under its id have left, and no more. -/
theorem Journal.Sound.keyedOnItsId {d₀ : Daemon} {es : List Event} {m : Mutation} {fate : Fate}
    {w : World} (h : w.journal.Sound d₀ es) (hreads : m.ReadsOutcome fate) :
    m.KeyedOnItsId d₀ es fate w := by
  cases hrow : w.journal.resolved m.mutationId with
  | none => exact Or.inl (hreads.applies hrow)
  | some row =>
    obtain ⟨hmem, hid⟩ := Journal.resolved_eq_some.mp hrow
    obtain ⟨m', fate', w', outcome, hcalled, hm', hbytes, hcomputed⟩ := h.applied row hmem
    have hrecorded : w.journal.Recorded m.mutationId outcome :=
      ⟨row, hrow, by rw [hbytes, Wire.outcome.parse_serialize]⟩
    refine Or.inr ⟨m', fate', w', outcome, hcalled, hm'.trans hid, hcomputed, fun happlies => ?_,
      Mutation.run_of_recorded hreads hrecorded⟩
    rw [happlies.unresolved] at hrow
    cases hrow

/-- **One UUID under two spellings.** Two accepted ids denote the same UUID exactly when they
differ in the case of letters at most. At any time behind the recording of an outcome under
`a`, the request is sent under `b`, and nothing keeps the call from looking its outcome up. If
`b` is the same string, the call is answered with the outcome on record, and nothing is applied.
If it is not, the outcome under `a` does not answer it: it is applied or answered by what calls
under `b` have left, and with no earlier call under `b` it is applied. -/
theorem respelled (config : Config) (b₀ : Book) (es es' : List Event) {a b : String}
    (ha : validateMutationId a = .ok ()) {outcome : Outcome Bytes}
    (hrecorded : ((Daemon.fresh config b₀).run es).world.journal.Recorded a outcome)
    {m : Mutation} {fate : Fate} (hreads : (m.withId b).ReadsOutcome fate) :
    let w := (((Daemon.fresh config b₀).run es).run es').world
    (uuidOf a = uuidOf b ↔ a.toList.map Char.toLower = b.toList.map Char.toLower) ∧
    (b = a → ¬(m.withId b).Applies fate w ∧ (m.withId b).run fate w
      = liftValid ((m.withId b).call.replay outcome) ((m.withId b).journaled fate w)) ∧
    (b ≠ a → (m.withId b).KeyedOnItsId (Daemon.fresh config b₀) (es ++ es') fate w) ∧
    (b ≠ a → (∀ m' fate' w', Called (Daemon.fresh config b₀) (es ++ es') m' fate' w' →
      m'.mutationId ≠ b) → (m.withId b).Applies fate w) := by
  intro w
  have hb := hreads.id_valid
  rw [Mutation.mutationId_withId] at hb
  have hsound := (Daemon.Sound.run config b₀ (es ++ es')).journal
  have hrun : (Daemon.fresh config b₀).run (es ++ es')
      = ((Daemon.fresh config b₀).run es).run es' := Machine.run_append
  rw [hrun] at hsound
  have hkeyed := hsound.keyedOnItsId hreads
  refine ⟨uuidOf_eq_iff ha hb, ?_, fun _ => hkeyed, ?_⟩
  -- the same string: the outcome is found, and answered
  · intro hab
    obtain ⟨row, hrow, hparse⟩ := hrecorded
    have hdown : ((Daemon.fresh config b₀).run es).Down := (Daemon.Sound.run config b₀ es).down
    have hstays : w.journal.resolved (m.withId b).mutationId = some row := by
      rw [Mutation.mutationId_withId, hab]
      exact hdown.resolved_run hrow es'
    refine ⟨fun happlies => ?_, Mutation.run_of_recorded hreads ⟨row, hstays, hparse⟩⟩
    rw [happlies.unresolved] at hstays
    cases hstays
  -- another string that no call has used: there is no row under it, so the request is applied
  · intro _ hnone
    rcases hkeyed with happlies | ⟨m', fate', w', -, hcalled, hm', -⟩
    · exact happlies
    · rw [Mutation.mutationId_withId] at hm'
      exact absurd hm' (hnone m' fate' w' hcalled)

end Respelled

/-! ### A post under either spelling -/

section TwoSpellings

open Reference

attribute [local instance] Reference.engine Reference.wire

/-- Five cents of food. -/
def postFood : Mutation :=
  .postTransaction ⟨⟨mutationId 'a'⟩, transaction "" [split 2 (-5), split 3 5]⟩

/-- The post under the lower-case id. -/
def foodPosted : Daemon := started.run [.mutate postFood (calm 16)]

/-- The same UUID in upper case: the request is answered OK both times, and the book has the
transaction twice. -/
theorem posted_under_both :
    validateMutationId (mutationId 'a') = .ok () ∧ validateMutationId (mutationId 'A') = .ok () ∧
    uuidOf (mutationId 'a') = uuidOf (mutationId 'A') ∧
    (replyOf (postFood.run (calm 16) started.world)).isOk = true ∧
    foodPosted.world.journal.RecordedOk (mutationId 'a') ∧
    (replyOf ((postFood.withId (mutationId 'A')).run (calm 32) foodPosted.world)).isOk = true ∧
    (foodPosted.step (.mutate (postFood.withId (mutationId 'A'))
      (calm 32))).world.book.transactions.card = 2 := by
  decide +kernel

/-- A post and its spelling in capitals. -/
theorem respelled_food : ∃ outcome,
    (uuidOf (mutationId 'a') = uuidOf (mutationId 'A') ↔
      (mutationId 'a').toList.map Char.toLower = (mutationId 'A').toList.map Char.toLower) ∧
    (mutationId 'A' = mutationId 'a' →
      ¬(postFood.withId (mutationId 'A')).Applies (calm 32) foodPosted.world ∧
      (postFood.withId (mutationId 'A')).run (calm 32) foodPosted.world
        = liftValid ((postFood.withId (mutationId 'A')).call.replay outcome)
            ((postFood.withId (mutationId 'A')).journaled (calm 32) foodPosted.world)) ∧
    (mutationId 'A' ≠ mutationId 'a' →
      (postFood.withId (mutationId 'A')).KeyedOnItsId (Daemon.fresh config book)
        [.start (starts []), .mutate postFood (calm 16)] (calm 32) foodPosted.world) ∧
    (mutationId 'A' ≠ mutationId 'a' → (∀ m' fate' w',
      Called (Daemon.fresh config book) [.start (starts []), .mutate postFood (calm 16)] m' fate'
        w' → m'.mutationId ≠ mutationId 'A') →
      (postFood.withId (mutationId 'A')).Applies (calm 32) foodPosted.world) := by
  have hok : foodPosted.world.journal.RecordedOk (mutationId 'a') := by decide +kernel
  obtain ⟨outcome, hrecorded, -⟩ := hok
  have haccepted : validateMutationId (mutationId 'a') = .ok () := by decide +kernel
  have hreads : (postFood.withId (mutationId 'A')).ReadsOutcome (calm 32) :=
    ⟨by decide +kernel, rfl, by decide, rfl⟩
  exact ⟨outcome, respelled config book [.start (starts []), .mutate postFood (calm 16)] []
    haccepted hrecorded hreads⟩

end TwoSpellings

end Daichod
