import Mathlib.Data.Finmap

/-!
# Daichod.Library.EditStore

A **write-back store with nested edit scopes**, over an arbitrary family
`β : κ → Type` of entities: a working copy, a durable copy, and the stack of
edits that have begun and not yet committed.

* Reads see the working copy, uncommitted changes included.
* `close k` ends the innermost edit on `k`. A commit then flushes every key that no
  open edit still holds (`flush`), so a commit nested inside another edit of the same
  entity persists nothing of it.
* A rollback is the other ending: it restores those keys from the durable copy
  (`revert`).
* `save` flushes everything, open edits or not.
* `reload` forgets the working copy, which is what a crash does, and `load f` reads
  the durable copy anew, every value as `f` presents it: what is durable may leave
  open how a value looks (a list kept as a set of rows), and then every load decides
  it again.

The single building block is `Finmap.overlay`: one table on a set of keys, another
table off it. All facts about the store are read off `lookup_overlay`, and two
tables are compared by `Finmap.ext_lookup`.

## Proof shape

A table is known by its lookups, so each operation on tables gets one lemma that says what it
looks up (`lookup_assign_self`, `lookup_mapVals`, `lookup_overlay`), and after that no proof opens
a table again.

The operations on a store come in two kinds. Those on one copy leave the other two fields alone,
which the simp set knows. Those that move values between the copies (`flush`, `revert`) are
overlays on the keys that some open edit holds, and `Clean` and `Quiet` say when such an overlay
is trivial: off the open edits the copies agree, and with no edit open they agree everywhere. A
property that every entity has is carried through all of them alike (`All`).
-/

universe u v

namespace Finmap

variable {κ : Type u} {β : κ → Type v} [DecidableEq κ]

/-! ### Entries and lookups -/

/-- The entries of a table are what it looks up. -/
theorem mem_entries_iff {s : Finmap β} {a : κ} {b : β a} :
    (⟨a, b⟩ : Sigma β) ∈ s.entries ↔ s.lookup a = some b := by
  induction s using Finmap.induction_on with
  | H l => exact (List.mem_dlookup_iff l.nodupKeys).symm

/-- Two tables whose entries are the same pairs are looked up alike. -/
theorem lookup_eq_of_mem_iff {s t : Finmap β} {a : κ}
    (h : ∀ b, (⟨a, b⟩ : Sigma β) ∈ s.entries ↔ (⟨a, b⟩ : Sigma β) ∈ t.entries) :
    s.lookup a = t.lookup a := by
  refine Option.ext fun b => ?_
  simpa only [mem_entries_iff, Option.mem_def] using h b

/-! ### Assigning an optional value -/

/-- Set key `a` to `o`: insert the value, or erase the key when there is none. -/
def assign (a : κ) (o : Option (β a)) (s : Finmap β) : Finmap β :=
  match o with
  | some b => s.insert a b
  | none => s.erase a

/-- An assigned key has the value assigned, or none. -/
@[simp] theorem lookup_assign_self (a : κ) (o : Option (β a)) (s : Finmap β) :
    (s.assign a o).lookup a = o := by
  cases o with
  | none => exact lookup_erase a s
  | some b => exact lookup_insert s

/-- The other keys keep theirs. -/
@[simp] theorem lookup_assign_ne {a k : κ} (h : k ≠ a) (o : Option (β a)) (s : Finmap β) :
    (s.assign a o).lookup k = s.lookup k := by
  cases o with
  | none => exact lookup_erase_ne h
  | some b => exact lookup_insert_of_ne s h

/-- Writing back what is already there changes nothing. -/
theorem assign_lookup_self (a : κ) (s : Finmap β) : s.assign a (s.lookup a) = s := by
  refine ext_lookup fun k => ?_
  by_cases hk : k = a
  · subst hk; simp
  · simp [hk]

/-- Inserting what is already there changes nothing. -/
theorem insert_lookup_self {a : κ} {b : β a} {s : Finmap β} (h : s.lookup a = some b) :
    s.insert a b = s := by
  refine ext_lookup fun k => ?_
  by_cases hk : k = a
  · subst hk
    rw [lookup_insert, h]
  · rw [lookup_insert_of_ne _ hk]

/-- Erasing what was not there before it was inserted undoes the insertion. -/
theorem erase_insert_self {a : κ} {b : β a} {s : Finmap β} (h : s.lookup a = none) :
    (s.insert a b).erase a = s := by
  refine ext_lookup fun k => ?_
  by_cases hk : k = a
  · subst hk
    rw [lookup_erase, h]
  · rw [lookup_erase_ne hk, lookup_insert_of_ne _ hk]

/-! ### Mapping the values of a table -/

/-- Apply `f` to every value, keeping the keys. -/
def mapVals (f : ∀ k, β k → β k) (s : Finmap β) : Finmap β where
  entries := s.entries.map fun e => ⟨e.1, f e.1 e.2⟩
  nodupKeys := by
    rw [← Multiset.nodup_keys, Multiset.keys, Multiset.map_map]
    exact Multiset.nodup_keys.mpr s.nodupKeys

/-- A mapped table looks up the mapped value. -/
theorem lookup_mapVals (f : ∀ k, β k → β k) (s : Finmap β) (k : κ) :
    (s.mapVals f).lookup k = (s.lookup k).map (f k) := by
  refine Option.ext fun b => ?_
  rw [← mem_entries_iff]
  simp only [mapVals, Multiset.mem_map, Sigma.exists, Sigma.mk.injEq, Option.map_eq_some_iff]
  -- An entry of the mapped table stems from one under the same key, and from no other.
  constructor
  · rintro ⟨a, c, hc, rfl, hb⟩
    exact ⟨c, mem_entries_iff.mp hc, eq_of_heq hb⟩
  · rintro ⟨c, hc, rfl⟩
    exact ⟨k, c, mem_entries_iff.mpr hc, rfl, HEq.rfl⟩

/-- Mapping by the identity changes nothing. -/
theorem mapVals_id (s : Finmap β) : s.mapVals (fun _ b => b) = s :=
  ext_lookup fun k => by rw [lookup_mapVals, Option.map_id']

/-! ### Overlays

An overlay takes its values from the first table on the given keys, and from the second one off
them. The keys of the two parts are disjoint, which makes it a table again. -/

/-- The table that agrees with `s` on the keys `ks` and with `t` off them. -/
def overlay (ks : Finset κ) (s t : Finmap β) : Finmap β where
  entries := s.entries.filter (·.1 ∈ ks) + t.entries.filter (·.1 ∉ ks)
  nodupKeys := by
    rw [← Multiset.nodup_keys, Multiset.keys, Multiset.map_add, Multiset.nodup_add]
    refine ⟨?_, ?_, ?_⟩
    · exact Multiset.nodup_of_le (Multiset.map_le_map (Multiset.filter_le _ _))
        (Multiset.nodup_keys.mpr s.nodupKeys)
    · exact Multiset.nodup_of_le (Multiset.map_le_map (Multiset.filter_le _ _))
        (Multiset.nodup_keys.mpr t.nodupKeys)
    · refine Multiset.disjoint_left.mpr @fun k hs ht => ?_
      simp only [Multiset.mem_map, Multiset.mem_filter] at hs ht
      obtain ⟨e, ⟨-, he⟩, rfl⟩ := hs
      obtain ⟨e', ⟨-, he'⟩, hk⟩ := ht
      exact he' (hk ▸ he)

/-- What an overlay looks up, which is all that is ever used of it. -/
@[simp] theorem lookup_overlay (ks : Finset κ) (s t : Finmap β) (k : κ) :
    (overlay ks s t).lookup k = if k ∈ ks then s.lookup k else t.lookup k := by
  split
  · next hk =>
    refine lookup_eq_of_mem_iff fun b => ?_
    simp [overlay, hk]
  · next hk =>
    refine lookup_eq_of_mem_iff fun b => ?_
    simp [overlay, hk]

/-- Over no keys at all the second table is left. -/
@[simp] theorem overlay_empty (s t : Finmap β) : overlay ∅ s t = t :=
  ext_lookup fun k => by simp

/-! ### A property of all entries

The rules by which such a property spreads to the tables that the operations above build, one for
each. -/

/-- Every entry of the table satisfies `P`. -/
def All (P : ∀ k, β k → Prop) (s : Finmap β) : Prop := ∀ k b, s.lookup k = some b → P k b

namespace All

variable {P : ∀ k, β k → Prop} {s t : Finmap β} {a : κ}

/-- The empty table has nothing to offend. -/
theorem empty : (∅ : Finmap β).All P := by
  intro k b h
  rw [lookup_empty] at h
  cases h

/-- Inserting asks for the property of what is inserted. -/
theorem insert (h : s.All P) {b : β a} (hb : P a b) : (s.insert a b).All P := by
  intro k c hk
  by_cases heq : k = a
  · subst heq
    rw [lookup_insert] at hk
    cases hk
    exact hb
  · rw [lookup_insert_of_ne _ heq] at hk
    exact h k c hk

/-- Erasing asks for nothing. -/
theorem erase (h : s.All P) : (s.erase a).All P := by
  intro k b hk
  by_cases heq : k = a
  · subst heq
    rw [lookup_erase] at hk
    cases hk
  · rw [lookup_erase_ne heq] at hk
    exact h k b hk

/-- Assigning asks for it where there is a value. -/
theorem assign (h : s.All P) {o : Option (β a)} (ho : ∀ b ∈ o, P a b) : (s.assign a o).All P := by
  cases o with
  | none => exact h.erase
  | some b => exact h.insert (ho b rfl)

/-- An overlay has it when both of its tables do. -/
theorem overlay (hs : s.All P) (ht : t.All P) (ks : Finset κ) : (overlay ks s t).All P := by
  intro k b hk
  rw [lookup_overlay] at hk
  split at hk
  · exact hs k b hk
  · exact ht k b hk

/-- Mapping keeps what the function keeps. -/
theorem mapVals (h : s.All P) {f : ∀ k, β k → β k} (hf : ∀ k b, P k b → P k (f k b)) :
    (s.mapVals f).All P := by
  intro k b hk
  rw [lookup_mapVals] at hk
  obtain ⟨c, hc, rfl⟩ := Option.map_eq_some_iff.mp hk
  exact hf k c (h k c hc)

end All

end Finmap

/-- An edit that has begun and not yet committed: the entity it is on, and the
entities it has drawn in since (changed under this edit, to be flushed with it). -/
structure Scope (κ : Type u) where
  key : κ
  joined : Finset κ

/-- All keys an edit holds back from the durable copy. -/
def Scope.keys {κ : Type u} [DecidableEq κ] (scope : Scope κ) : Finset κ :=
  insert scope.key scope.joined

/-- A write-back store: what reads see, what a crash leaves, and the open edits,
innermost first. -/
structure EditStore {κ : Type u} (β : κ → Type v) where
  working : Finmap β
  durable : Finmap β
  scopes : List (Scope κ)

namespace EditStore

variable {κ : Type u} {β : κ → Type v}

/-! ### Changing one copy at a time -/

/-- Change the working copy. -/
def write (f : Finmap β → Finmap β) (s : EditStore β) : EditStore β :=
  { s with working := f s.working }

/-- Open an edit on `k`. -/
def beginEdit (k : κ) (s : EditStore β) : EditStore β :=
  { s with scopes := ⟨k, ∅⟩ :: s.scopes }

/-- Make the whole working copy durable, open edits included. -/
def save (s : EditStore β) : EditStore β := { s with durable := s.working }

/-- Forget the working copy and the open edits. -/
def reload (s : EditStore β) : EditStore β :=
  { working := s.durable, durable := s.durable, scopes := [] }

/-- The store of a table with no edit in progress. -/
def ofTable (t : Finmap β) : EditStore β := { working := t, durable := t, scopes := [] }

/-- Forget the working copy and the open edits, and read the durable copy with every value
as `f` presents it. -/
def load (f : ∀ k, β k → β k) (s : EditStore β) : EditStore β := ofTable (s.durable.mapVals f)

/-- No edit is open and everything is durable. -/
structure Quiet (s : EditStore β) : Prop where
  scopes_nil : s.scopes = []
  working_eq : s.working = s.durable

/-! Stores at rest. A store made of a table is one, and so is a store just loaded: what a crash or a
restart leaves has nothing open and nothing to lose. -/

theorem ofTable_quiet (t : Finmap β) : (ofTable t).Quiet := ⟨rfl, rfl⟩

theorem reload_quiet (s : EditStore β) : s.reload.Quiet := ⟨rfl, rfl⟩

/-- A load leaves nothing open, whatever was open before. -/
theorem load_quiet (f : ∀ k, β k → β k) (s : EditStore β) : (s.load f).Quiet := ofTable_quiet _

@[simp] theorem load_durable (f : ∀ k, β k → β k) (s : EditStore β) :
    (s.load f).durable = s.durable.mapVals f := rfl

@[simp] theorem load_working (f : ∀ k, β k → β k) (s : EditStore β) :
    (s.load f).working = s.durable.mapVals f := rfl

@[simp] theorem reload_durable (s : EditStore β) : s.reload.durable = s.durable := rfl

@[simp] theorem write_scopes (f : Finmap β → Finmap β) (s : EditStore β) :
    (s.write f).scopes = s.scopes := rfl

@[simp] theorem write_durable (f : Finmap β → Finmap β) (s : EditStore β) :
    (s.write f).durable = s.durable := rfl

@[simp] theorem write_working (f : Finmap β → Finmap β) (s : EditStore β) :
    (s.write f).working = f s.working := rfl

@[simp] theorem beginEdit_durable (k : κ) (s : EditStore β) :
    (s.beginEdit k).durable = s.durable := rfl

@[simp] theorem beginEdit_working (k : κ) (s : EditStore β) :
    (s.beginEdit k).working = s.working := rfl

/-- A quiet store is the store of its durable table. -/
theorem Quiet.eq_ofTable {s : EditStore β} (h : s.Quiet) : s = ofTable s.durable := by
  obtain ⟨w, d, sc⟩ := s
  obtain ⟨hsc, hw⟩ := h
  simp only at hsc hw
  subst hsc hw
  rfl

/-- A restart changes nothing on a quiet store. -/
theorem Quiet.reload_eq {s : EditStore β} (h : s.Quiet) : s.reload = s := by
  rw [h.eq_ofTable]
  rfl

/-- Nor does a save. -/
theorem Quiet.save_eq {s : EditStore β} (h : s.Quiet) : s.save = s := by
  rw [h.eq_ofTable]
  rfl

variable [DecidableEq κ]

/-- Nor does a load that presents every value as it is. -/
theorem Quiet.load_eq {s : EditStore β} (h : s.Quiet) : s.load (fun _ b => b) = s := by
  rw [load, Finmap.mapVals_id]
  exact h.eq_ofTable.symm

/-! ### Edits

An edit holds its own key back, and the keys it has drawn in. Closing it comes first, then the
flush or the revert: a key that an outer edit holds as well stays held. -/

/-- The keys some open edit holds. -/
def held (s : EditStore β) : Finset κ :=
  s.scopes.foldr (fun scope acc => scope.keys ∪ acc) ∅

/-- Draw further keys into the innermost edit. -/
def join (ks : Finset κ) (s : EditStore β) : EditStore β :=
  match s.scopes with
  | [] => s
  | scope :: rest => { s with scopes := { scope with joined := scope.joined ∪ ks } :: rest }

/-- Close the innermost edit on `k`, without deciding what becomes of its changes. -/
def close (k : κ) (s : EditStore β) : EditStore β :=
  { s with scopes := s.scopes.eraseP (·.key = k) }

/-- Make every key durable that no open edit holds. -/
def flush (s : EditStore β) : EditStore β :=
  { s with durable := Finmap.overlay s.held s.durable s.working }

/-- Restore every key from the durable copy that no open edit holds. -/
def revert (s : EditStore β) : EditStore β :=
  { s with working := Finmap.overlay s.held s.working s.durable }

/-! ### Clean stores

A store may have edits open and still be orderly: what no edit holds is the same in both copies.
Both endings of an edit establish this, whatever the store was like before. -/

/-- Off the open edits, the working copy is what is durable. -/
def Clean (s : EditStore β) : Prop := ∀ k ∉ s.held, s.working.lookup k = s.durable.lookup k

/-- With no edit open, no key is held. -/
theorem held_nil {s : EditStore β} (h : s.scopes = []) : s.held = ∅ := by
  simp [held, h]

/-- A store at rest is clean. -/
theorem Quiet.clean {s : EditStore β} (h : s.Quiet) : s.Clean := fun k _ => by
  rw [h.working_eq]

/-- After a flush the durable copy has caught up. -/
theorem flush_clean (s : EditStore β) : s.flush.Clean := by
  intro k hk
  have hk' : k ∉ s.held := hk
  simp [flush, hk']

/-- After a revert the working copy has been set back. -/
theorem revert_clean (s : EditStore β) : s.revert.Clean := by
  intro k hk
  have hk' : k ∉ s.held := hk
  simp [revert, hk']

/-! ### One edit on a quiet store

The way of a single edit: opened, entities drawn in, the working copy changed, and closed onto the
store below it. With no other edit around it the flush then takes everything. -/

/-- Closing an edit just opened leaves no trace of it. -/
@[simp] theorem close_beginEdit (k : κ) (s : EditStore β) : (s.beginEdit k).close k = s := by
  simp [close, beginEdit]

@[simp] theorem join_durable (ks : Finset κ) (s : EditStore β) :
    (s.join ks).durable = s.durable := by
  unfold join; split <;> rfl

@[simp] theorem join_working (ks : Finset κ) (s : EditStore β) :
    (s.join ks).working = s.working := by
  unfold join; split <;> rfl

@[simp] theorem join_empty (s : EditStore β) : s.join ∅ = s := by
  obtain ⟨w, d, scopes⟩ := s
  cases scopes <;> simp [join]

/-- What is drawn in and what is written do not interfere. -/
theorem write_join (f : Finmap β → Finmap β) (ks : Finset κ) (s : EditStore β) :
    (s.join ks).write f = (s.write f).join ks := by
  obtain ⟨w, d, scopes⟩ := s
  cases scopes <;> rfl

/-- An edit that has just been opened closes onto the store below it, whatever keys
it drew in. -/
@[simp] theorem close_join_beginEdit (k : κ) (ks : Finset κ) (s : EditStore β) :
    ((s.beginEdit k).join ks).close k = s := by
  simp [close, join, beginEdit]

/-- **A commit on a quiet store is all or nothing**: with no other edit open, closing the
edit makes exactly the working copy durable. -/
theorem flush_quiet {s : EditStore β} (h : s.scopes = []) :
    s.flush = { working := s.working, durable := s.working, scopes := [] } := by
  simp [flush, held_nil h, h]

/-- **A rollback on a quiet store** takes back everything. -/
theorem revert_quiet {s : EditStore β} (h : s.scopes = []) :
    s.revert = { working := s.durable, durable := s.durable, scopes := [] } := by
  simp [revert, held_nil h, h]

/-! ### What an open edit holds back -/

/-- A key is held if one of the open edits has it. -/
theorem mem_held {s : EditStore β} {k : κ} : k ∈ s.held ↔ ∃ scope ∈ s.scopes, k ∈ scope.keys := by
  unfold held
  induction s.scopes with
  | nil => simp
  | cons scope rest ih => simp [ih]

/-- A flush does not touch what an open edit holds. -/
theorem flush_durable_of_held {s : EditStore β} {k : κ} (h : k ∈ s.held) :
    s.flush.durable.lookup k = s.durable.lookup k := by
  simp [flush, h]

/-! ### A property of all entities

Both copies have it. Every operation of the store keeps it, given that what is written has it. -/

/-- `P` holds of every entity, in the working copy and in the durable one. -/
structure All (P : ∀ k, β k → Prop) (s : EditStore β) : Prop where
  working : s.working.All P
  durable : s.durable.All P

namespace All

variable {P : ∀ k, β k → Prop} {s : EditStore β} {k : κ}

theorem ofTable {t : Finmap β} (h : t.All P) : (ofTable t).All P := ⟨h, h⟩

theorem write (h : s.All P) {f : Finmap β → Finmap β} (hf : s.working.All P → (f s.working).All P) :
    (s.write f).All P := ⟨hf h.working, h.durable⟩

theorem beginEdit (h : s.All P) : (s.beginEdit k).All P := ⟨h.working, h.durable⟩

theorem join (h : s.All P) (ks : Finset κ) : (s.join ks).All P := by
  refine ⟨?_, ?_⟩
  · rw [join_working]
    exact h.working
  · rw [join_durable]
    exact h.durable

theorem close (h : s.All P) : (s.close k).All P := ⟨h.working, h.durable⟩

theorem flush (h : s.All P) : s.flush.All P := ⟨h.working, h.durable.overlay h.working _⟩

theorem revert (h : s.All P) : s.revert.All P := ⟨h.working.overlay h.durable _, h.durable⟩

theorem save (h : s.All P) : s.save.All P := ⟨h.working, h.working⟩

theorem reload (h : s.All P) : s.reload.All P := ⟨h.durable, h.durable⟩

end All

end EditStore
