import Daichod.Library.Ordered
import Daichod.Main.Backup

/-!
# Daichod.Properties.Retention

**Retention keeps the wrong snapshots**: `SnapshotBeforeOpen` prunes the names that come
first in the alphabet among those that are shaped like a stamp. The snapshot just taken is
one of them, look-alikes are among them, a negative bound is a huge one, and of the `.tmp`
leftovers it only removes that of its own day (`retainsRight_iff`).

## Proof shape

Names are compared as bytes, and the stamps of days compare like the days, since each part is
padded to its width (`before_of_todayStamp_lt`). What a call leaves is written down once, name by
name (`Retained`): the directories that look like stamps, today's among them, are sorted, and the
first ones are cut off. Whether a name is cut off is then a count of the names behind it
(`mem_cut_iff`).

`RetainsRight` and `Retainable` are compared clause by clause. In the one direction a clause that
fails is shown by a name that is gone, or still there; in the other, what is not cut off stays.
-/

namespace Daichod

namespace Backup

/-! ### Stamps in order -/

/-- A digit as a byte. -/
theorem toNat_digit (n : ℕ) : (0x30 + (n % 10).toUInt8 : UInt8).toNat = 48 + n % 10 := by
  have hdigit : n % 10 < 10 := Nat.mod_lt n (by omega)
  simp [UInt8.toNat_add]
  omega

/-- Padded numbers are told apart by their digits. -/
theorem padded_inj {width n m : ℕ} (hn : n < 10 ^ width) (hm : m < 10 ^ width)
    (h : padded width n = padded width m) : n = m := by
  induction width generalizing n m with
  | zero => simp at hn hm; omega
  | succ width ih =>
    rw [pow_succ] at hn hm
    obtain ⟨hfront, hlast⟩ := List.append_inj h (by rw [length_padded, length_padded])
    have hdiv := ih (by omega) (by omega) hfront
    have hmod := congrArg UInt8.toNat (List.singleton_inj.mp hlast)
    rw [toNat_digit, toNat_digit] at hmod
    omega

/-- Numbers of one width are in order as texts. -/
theorem lt_of_padded_lt {width n m : ℕ} (hn : n < 10 ^ width) (hm : m < 10 ^ width)
    (h : padded width n < padded width m) : n < m := by
  induction width generalizing n m with
  | zero => exact absurd h (List.lt_irrefl _)
  | succ width ih =>
    rw [pow_succ] at hn hm
    rw [padded, padded, Ordered.append_lt_append_iff (by rw [length_padded, length_padded])] at h
    rcases h with hfront | ⟨hfront, hlast⟩
    · have hdiv := ih (by omega) (by omega) hfront
      omega
    · have hdiv := padded_inj (by omega) (by omega) hfront
      rcases List.cons_lt_cons_iff.mp hlast with hmod | ⟨-, hnil⟩
      · rw [UInt8.lt_iff_toNat_lt, toNat_digit, toNat_digit] at hmod
        omega
      · exact absurd hnil (List.lt_irrefl _)

end Backup

namespace Day

variable {d d' : Day}

/-- No month is longer than 31 days. -/
theorem daysInMonth_le {year month : ℕ} : daysInMonth year month ≤ 31 := by
  unfold daysInMonth
  split <;> first | omega | (split <;> omega)

/-- A day has two digits. -/
theorem day_lt (d : Day) : d.day < 10 ^ 2 := by
  have hle := Nat.le_trans d.day_le daysInMonth_le
  omega

/-- A month has two digits. -/
theorem month_lt (d : Day) : d.month < 10 ^ 2 := by
  by_contra hmonth
  obtain ⟨k, hk⟩ := Nat.exists_eq_add_of_le' (Nat.le_of_not_lt hmonth)
  have hday := d.day_le
  have hpos := d.day_pos
  rw [hk] at hday
  exact absurd (Nat.lt_of_lt_of_le hpos hday) (Nat.lt_irrefl 0)

/-- One day comes before another. -/
def Before (d d' : Day) : Prop :=
  d.year < d'.year ∨ d.year = d'.year ∧
    (d.month < d'.month ∨ d.month = d'.month ∧ d.day < d'.day)

end Day

namespace Backup

/-- **A stamp names one day.** -/
theorem todayStamp_inj {d d' : Day} (h : todayStamp d = todayStamp d') : d = d' := by
  simp only [todayStamp, List.append_assoc] at h
  obtain ⟨hyear, h⟩ := List.append_inj h (by rw [length_padded, length_padded])
  obtain ⟨hmonth, h⟩ := List.append_inj (List.append_cancel_left h)
    (by rw [length_padded, length_padded])
  have hday := List.append_cancel_left h
  have hy := padded_inj d.year_lt d'.year_lt hyear
  have hm := padded_inj d.month_lt d'.month_lt hmonth
  have hd := padded_inj d.day_lt d'.day_lt hday
  cases d
  cases d'
  cases hy
  cases hm
  cases hd
  rfl

/-- Days come in the order of their stamps. -/
theorem before_of_todayStamp_lt {d d' : Day} (h : todayStamp d < todayStamp d') : d.Before d' := by
  have dash : ∀ {x y : CString}, cstr "-" ++ x < cstr "-" ++ y → x < y := by
    intro x y hxy
    rcases (Ordered.append_lt_append_iff rfl).mp hxy with hlt | ⟨-, hlt⟩
    · exact absurd hlt (List.lt_irrefl _)
    · exact hlt
  simp only [todayStamp, List.append_assoc] at h
  rw [Ordered.append_lt_append_iff (by rw [length_padded, length_padded])] at h
  rcases h with hyear | ⟨hyear, h⟩
  · exact Or.inl (lt_of_padded_lt d.year_lt d'.year_lt hyear)
  · have hrest := dash h
    rw [Ordered.append_lt_append_iff (by rw [length_padded, length_padded])] at hrest
    refine Or.inr ⟨padded_inj d.year_lt d'.year_lt hyear, ?_⟩
    rcases hrest with hmonth | ⟨hmonth, hday⟩
    · exact Or.inl (lt_of_padded_lt d.month_lt d'.month_lt hmonth)
    · exact Or.inr ⟨padded_inj d.month_lt d'.month_lt hmonth,
        lt_of_padded_lt d.day_lt d'.day_lt (dash hday)⟩

/-- So does the name of a `.tmp` directory. -/
theorem tmpName_inj {d d' : Day} (h : tmpName d = tmpName d') : d = d' :=
  todayStamp_inj (List.append_cancel_right h)

/-- A stamp looks like one. -/
theorem looksLikeStamp_todayStamp (d : Day) : looksLikeStamp (todayStamp d) = true := by
  have hdash : cstr "-" = [0x2D] := by decide
  simp [looksLikeStamp, todayStamp, hdash, padded]

/-- A `.tmp` directory does not. -/
theorem looksLikeStamp_tmpName (d : Day) : looksLikeStamp (tmpName d) = false := by
  simp [looksLikeStamp, length_tmpName]

/-! ### What the pruning removes

It lists the directories whose names look like stamps, sorts the names and removes as many of the
first as are too many. -/

section Prune

variable {α : Type} {root root' : Root α} {name : CString} {fate : SnapshotFate α}
  {sources : Sources α} {paths : Paths} {keepDays : Int32} {day : Day}

/-- A listed name looks like a stamp and is a directory. -/
theorem mem_stampNames : name ∈ stampNames root ↔
    looksLikeStamp name = true ∧ ∃ files origin, root.lookup name = some (.directory files origin) := by
  simp only [stampNames, List.mem_map, List.mem_filter, Bool.and_eq_true]
  constructor
  · rintro ⟨⟨name, entry⟩, ⟨hmem, hdirectory, hlooks⟩, rfl⟩
    have hlookup : root.lookup name = some entry := AList.mem_lookup_iff.mpr hmem
    cases entry with
    | file => cases hdirectory
    | directory files origin => exact ⟨hlooks, files, origin, hlookup⟩
  · rintro ⟨hlooks, files, origin, hlookup⟩
    exact ⟨⟨name, .directory files origin⟩, ⟨AList.mem_lookup_iff.mp hlookup, rfl, hlooks⟩, rfl⟩

/-- No name is listed twice. -/
theorem nodup_stampNames (root : Root α) : (stampNames root).Nodup :=
  (List.filter_sublist.map Sigma.fst).nodup root.keys_nodup

/-- The names removed are gone, and the others untouched. -/
theorem lookup_foldl_erase {names : List CString} :
    (names.foldl (fun root name => root.erase name) root).lookup name
      = if name ∈ names then none else root.lookup name := by
  induction names generalizing root with
  | nil => simp
  | cons first names ih =>
    rw [List.foldl_cons, ih]
    by_cases hmem : name ∈ names
    · simp [hmem]
    · by_cases heq : name = first
      · rw [← heq, AList.lookup_erase]
        simp
      · simp [hmem, heq, AList.lookup_erase_ne heq]

/-- A removal that succeeds removes the whole directory. -/
theorem removeAll_done {fate : RemoveFate} (h : fate.answer = .done) :
    removeAll fate name root = .ok () (root.erase name) := by
  unfold removeAll
  rw [Triple.run_bind]
  simp only [h]
  rfl

/-- A pruning of which every removal succeeds. -/
theorem prune_done (hremove : ∀ name, (fate.remove name).answer = .done) {keep : ℕ}
    {stamps : List CString} :
    prune fate keep stamps root
      = .ok () ((stamps.take (stamps.length - keep)).foldl (fun root name => root.erase name) root) := by
  induction stamps generalizing root with
  | nil => simp [prune]; rfl
  | cons stamp rest ih =>
    unfold prune
    split
    · next hlt =>
      rw [List.length_cons] at hlt
      have hlength : (stamp :: rest).length - keep = rest.length - keep + 1 := by
        rw [List.length_cons]
        omega
      rw [Triple.run_bind, removeAll_done (hremove stamp), hlength, List.take_succ_cons, List.foldl_cons]
      exact ih
    · next hle =>
      have hlength : (stamp :: rest).length - keep = 0 := by omega
      rw [hlength]
      rfl

/-- The `.tmp` directory is nobody else's. -/
theorem tmpInvariant_elsewhere :
    TmpInvariant day fun root' => ∀ name ≠ tmpName day, root'.lookup name = root.lookup name where
  insert root' entry h name hne := by
    rw [AList.lookup_insert_ne hne]
    exact h name hne
  erase root' h name hne := by
    rw [AList.lookup_erase_ne hne]
    exact h name hne

/-- The stamps there are for the pruning. -/
def stampsAfter (root : Root α) (day : Day) : List CString := todayStamp day :: stampNames root

/-- What a call that succeeds finds under a name after the rename. -/
def lookupRenamed (root : Root α) (day : Day) (today : Entry α) (name : CString) : Option (Entry α) :=
  if name = todayStamp day then some today
  else if name = tmpName day then none
  else root.lookup name

/-- What the rename leaves under each name. -/
theorem lookup_renamed (h : ∀ name ≠ tmpName day, root'.lookup name = root.lookup name)
    {files : CString → Option α} :
    (renamed sources day files root').lookup name
      = lookupRenamed root day (.directory files ⟨some sources, []⟩) name := by
  unfold renamed lookupRenamed
  split
  · next heq => rw [heq, AList.lookup_insert]
  · next hne =>
    rw [AList.lookup_insert_ne hne]
    split
    · next heq => rw [heq, AList.lookup_erase]
    · next hne' =>
      rw [AList.lookup_erase_ne hne', h name hne']

/-- It adds today's stamp to the names listed. -/
theorem stampNames_renamed (h : ∀ name ≠ tmpName day, root'.lookup name = root.lookup name)
    (habsent : root.lookup (todayStamp day) = none) {files : CString → Option α} :
    (stampNames (renamed sources day files root')).Perm (stampsAfter root day) := by
  have hnew : todayStamp day ∉ stampNames root := by
    rw [mem_stampNames, habsent]
    rintro ⟨-, files, origin, hlookup⟩
    cases hlookup
  refine (List.perm_ext_iff_of_nodup (nodup_stampNames _)
    (List.nodup_cons.mpr ⟨hnew, nodup_stampNames root⟩)).mpr fun name => ?_
  rw [mem_stampNames, List.mem_cons, mem_stampNames, lookup_renamed h, lookupRenamed]
  by_cases heq : name = todayStamp day
  · subst heq
    simp [looksLikeStamp_todayStamp]
  · by_cases htmp : name = tmpName day
    · subst htmp
      simp [looksLikeStamp_tmpName, heq]
    · simp [heq, htmp]

/-- A bound from 0 on is itself as a size. -/
theorem castSize_of_nonneg (h : 0 ≤ keepDays.toInt) : (castSize keepDays : ℤ) = keepDays.toInt := by
  have hlt := keepDays.toInt_lt
  rw [castSize]
  omega

/-- A negative bound is greater than the size of any vector. -/
theorem lt_castSize (h : keepDays.toInt < 0) : maxSize < castSize keepDays := by
  have hle := keepDays.le_toInt
  rw [castSize, maxSize]
  omega

/-- **The pruning**, when nothing of it fails. -/
theorem run_pruneOldest (hlist : fate.list = .done)
    (hremove : ∀ name, (fate.remove name).answer = .done) :
    pruneOldest fate keepDays root =
      if maxSize < (stampNames root).length then
        .error (.other (cstr "vector::_M_realloc_append")) root
      else
        let sorted := (stampNames root).insertionSort (· ≤ ·)
        .ok () ((sorted.take (sorted.length - castSize keepDays)).foldl
          (fun root name => root.erase name) root) := by
  have hstamps : listStamps fate.list root =
      if maxSize < (stampNames root).length then
        .error (.other (cstr "vector::_M_realloc_append")) root
      else .ok (stampNames root) root := by
    rw [hlist]
    unfold listStamps
    dsimp only
    rw [Triple.run_bind]
    show (if _ then _ else _ : Snapshotting α (List CString)) root = _
    split <;> rfl
  rw [pruneOldest, Triple.run_bind, hstamps]
  by_cases hsize : maxSize < (stampNames root).length
  · rw [if_pos hsize, if_pos hsize]
  · rw [if_neg hsize, if_neg hsize]
    exact prune_done hremove

/-- The sorted names ascend. -/
theorem pairwise_sorted {names : List CString} (h : names.Nodup) :
    (names.insertionSort (· ≤ ·)).Pairwise (· < ·) := by
  have hle := List.pairwise_insertionSort (· ≤ ·) names
  have hne := (List.perm_insertionSort (· ≤ ·) names).nodup_iff.mpr h
  refine (hle.and hne).imp fun {a b} hab => ?_
  exact (List.le_iff_lt_or_eq.mp hab.1).resolve_right hab.2

/-- What a call leaves: the stamps in order, but for the first of them, and what is not a
stamp. -/
structure Retained (root : Root α) (keepDays : Int32) (day : Day) (today : Entry α)
    (sorted : List CString) (root' : Root α) : Prop where
  absent : root.lookup (todayStamp day) = none
  size : (stampsAfter root day).length ≤ maxSize
  isDirectory : today.isDirectory = true
  perm : sorted.Perm (stampsAfter root day)
  ascending : sorted.Pairwise (· < ·)
  lookup : ∀ name, root'.lookup name =
    if name ∈ sorted.take (sorted.length - castSize keepDays) then none
    else lookupRenamed root day today name

/-- What a call leaves that returns true, if nothing is wrong with its pruning. -/
theorem run_retained (hlist : fate.list = .done) (hremove : ∀ name, (fate.remove name).answer = .done)
    (hrun : snapshotBeforeOpen fate sources paths keepDays day root = .ok true root') :
    ∃ today sorted, Retained root keepDays day today sorted root' := by
  rw [run_snapshotBeforeOpen] at hrun
  split at hrun
  · cases hrun
  · next habsent =>
    have hnone : root.lookup (todayStamp day) = none := by simpa using habsent
    cases htake : takeSnapshot fate sources paths day root with
    | error e root₁ =>
      rw [htake] at hrun
      cases hrun
    | ok _ root₁ =>
      obtain ⟨root₂, files, helsewhere, -, rfl⟩ :=
        (triple_takeSnapshot tmpInvariant_elsewhere).ok (fun name _ => rfl) htake
      have hperm := @stampNames_renamed _ _ _ sources _ helsewhere hnone files
      rw [htake] at hrun
      dsimp only at hrun
      rw [run_pruneOldest hlist hremove] at hrun
      -- A vector of too many names throws, and then the call does not return true.
      by_cases hsize : maxSize < (stampNames (renamed sources day files root₂)).length
      · rw [if_pos hsize] at hrun
        cases hrun
      · rw [if_neg hsize] at hrun
        cases hrun
        refine ⟨.directory files ⟨some sources, []⟩,
          (stampNames (renamed sources day files root₂)).insertionSort (· ≤ ·), ?_⟩
        constructor
        · exact hnone
        · rw [← hperm.length_eq]
          omega
        · rfl
        · exact (List.perm_insertionSort _ _).trans hperm
        · exact pairwise_sorted (nodup_stampNames _)
        · intro name
          rw [lookup_foldl_erase, lookup_renamed helsewhere]

end Prune

/-! ### What is right to retain

The snapshots of the last days, as many as the bound says, and nothing that is no snapshot is
touched. -/

section Retention

variable {α : Type} {root root' : Root α} {keepDays : Int32} {day : Day} {today : Entry α}
  {sorted : List CString} {name : CString}

/-- There is a snapshot of the day. -/
def HasSnapshot (root : Root α) (day : Day) : Prop :=
  ∃ files origin, root.lookup (todayStamp day) = some (.directory files origin)

/-- There is a `.tmp` directory of the day. -/
def HasLeftover (root : Root α) (day : Day) : Prop :=
  ∃ files origin, root.lookup (tmpName day) = some (.directory files origin)

/-- The right snapshots are retained. -/
structure RetainsRight (root : Root α) (keepDays : Int32) (day : Day) (root' : Root α) : Prop where
  /-- The snapshot just taken is there. -/
  taken : HasSnapshot root' day
  /-- What was there and is gone was the snapshot of a day, or a `.tmp` leftover. -/
  removed : ∀ name entry, root.lookup name = some entry → root'.lookup name = none →
    entry.isDirectory = true ∧ ∃ d, name = todayStamp d ∨ name = tmpName d
  /-- There are no more snapshots than `keep_days` says, -/
  few : ∀ days : List Day, days.Nodup → (∀ d ∈ days, HasSnapshot root' d) →
    (days.length : ℤ) ≤ max keepDays.toInt 1
  /-- and they are the newest. -/
  newest : ∀ d d', HasSnapshot root d ∨ d = day → ¬HasSnapshot root' d → HasSnapshot root' d' →
    d.Before d'
  /-- There are no leftovers. -/
  clean : ∀ d, ¬HasLeftover root' d

/-- What must be so beforehand. -/
structure Retainable (root : Root α) (keepDays : Int32) (day : Day) : Prop where
  nonzero : keepDays.toInt ≠ 0
  /-- A negative bound removes nothing, so there must be nothing to remove. -/
  alone : keepDays.toInt < 0 → ∀ d, ¬HasSnapshot root d
  /-- Fewer than `keep_days` directories shaped like a stamp come after today's, -/
  recent : 0 < keepDays.toInt →
    ((stampsAfter root day).countP (todayStamp day < ·) : ℤ) < keepDays.toInt
  /-- and after any that is not the snapshot of a day. -/
  lookalikes : 0 < keepDays.toInt → ∀ name ∈ stampNames root, (∀ d, name ≠ todayStamp d) →
    ((stampsAfter root day).countP (name < ·) : ℤ) < keepDays.toInt
  /-- Another day has left no `.tmp` directory, -/
  leftovers : ∀ d, HasLeftover root d → d = day
  /-- and nobody a file of that name. -/
  noFile : ∀ entry, root.lookup (tmpName day) = some entry → entry.isDirectory = true

namespace Retained

/-- **A name is cut off** if at least as many names as the bound come behind it. -/
theorem mem_cut_iff (h : Retained root keepDays day today sorted root') :
    name ∈ sorted.take (sorted.length - castSize keepDays) ↔
      name ∈ stampsAfter root day ∧
        castSize keepDays ≤ (stampsAfter root day).countP (name < ·) := by
  rw [Ordered.mem_take_iff h.ascending, h.perm.mem_iff, h.perm.countP_eq]

/-- What is neither a stamp nor the day's `.tmp` directory stays. -/
theorem lookup_other (h : Retained root keepDays day today sorted root')
    (hname : name ∉ stampsAfter root day) (htmp : name ≠ tmpName day) :
    root'.lookup name = root.lookup name := by
  have hday : name ≠ todayStamp day := fun heq => hname (heq ▸ List.mem_cons_self)
  rw [h.lookup, if_neg fun hcut => hname (h.mem_cut_iff.mp hcut).1, lookupRenamed, if_neg hday,
    if_neg htmp]

/-- The snapshot of a day is among the names sorted. -/
theorem mem_stampsAfter_of_hasSnapshot (h : Retained root keepDays day today sorted root') {d : Day}
    (hd : HasSnapshot root' d) : todayStamp d ∈ stampsAfter root day := by
  by_contra hnot
  obtain ⟨files, origin, hlookup⟩ := hd
  rw [h.lookup_other hnot (Ne.symm tmpName_ne_todayStamp)] at hlookup
  exact hnot (List.mem_cons_of_mem _ (mem_stampNames.mpr ⟨looksLikeStamp_todayStamp d, _, _, hlookup⟩))

/-- A snapshot is there afterwards unless it is cut off. -/
theorem hasSnapshot_iff (h : Retained root keepDays day today sorted root') {d : Day}
    (hd : HasSnapshot root d ∨ d = day) :
    HasSnapshot root' d ↔ todayStamp d ∉ sorted.take (sorted.length - castSize keepDays) := by
  unfold HasSnapshot
  rw [h.lookup]
  constructor
  · rintro ⟨files, origin, hlookup⟩ hcut
    rw [if_pos hcut] at hlookup
    cases hlookup
  · intro hnot
    rw [if_neg hnot, lookupRenamed]
    by_cases heq : todayStamp d = todayStamp day
    · rw [if_pos heq]
      have hdirectory := h.isDirectory
      cases today with
      | file => cases hdirectory
      | directory files origin => exact ⟨files, origin, rfl⟩
    · rw [if_neg heq, if_neg (Ne.symm tmpName_ne_todayStamp)]
      exact hd.resolve_right fun hday => heq (hday ▸ rfl)

/-- A negative bound cuts nothing off. -/
theorem not_cut_of_neg (h : Retained root keepDays day today sorted root')
    (hneg : keepDays.toInt < 0) : name ∉ sorted.take (sorted.length - castSize keepDays) := by
  have hcast := lt_castSize hneg
  have hsize := h.size
  rw [← h.perm.length_eq] at hsize
  -- As a size a negative bound exceeds the number of names.
  have hzero : sorted.length - castSize keepDays = 0 := by omega
  rw [hzero]
  exact List.not_mem_nil

/-- A snapshot that is there afterwards was not cut off. -/
theorem mem_drop_of_hasSnapshot (h : Retained root keepDays day today sorted root') {d : Day}
    (hd : HasSnapshot root' d) :
    todayStamp d ∈ sorted.drop (sorted.length - castSize keepDays) := by
  have hmem := h.perm.mem_iff.mpr (h.mem_stampsAfter_of_hasSnapshot hd)
  rw [← List.take_append_drop (sorted.length - castSize keepDays) sorted] at hmem
  refine (List.mem_append.mp hmem).resolve_left fun hcut => ?_
  obtain ⟨files, origin, hlookup⟩ := hd
  rw [h.lookup, if_pos hcut] at hlookup
  cases hlookup

/-- Snapshots that are there afterwards are no more than the bound. -/
theorem length_le (h : Retained root keepDays day today sorted root') {days : List Day}
    (hnodup : days.Nodup) (hdays : ∀ d ∈ days, HasSnapshot root' d) :
    days.length ≤ castSize keepDays := by
  have hsubset : ∀ name ∈ days.map todayStamp,
      name ∈ sorted.drop (sorted.length - castSize keepDays) := by
    intro name hname
    obtain ⟨d, hd, rfl⟩ := List.mem_map.mp hname
    exact h.mem_drop_of_hasSnapshot (hdays d hd)
  have hstamps : (days.map todayStamp).Nodup := hnodup.map fun d d' => todayStamp_inj
  have hle := (hstamps.subperm hsubset).length_le
  rw [List.length_map, List.length_drop] at hle
  omega

/-- What is cut off is older than what stays. -/
theorem before (h : Retained root keepDays day today sorted root') {d d' : Day}
    (hd : HasSnapshot root d ∨ d = day) (hgone : ¬HasSnapshot root' d)
    (hstays : HasSnapshot root' d') : d.Before d' := by
  have hcut : todayStamp d ∈ sorted.take (sorted.length - castSize keepDays) := by
    by_contra hnot
    exact hgone ((h.hasSnapshot_iff hd).mpr hnot)
  exact before_of_todayStamp_lt
    (Ordered.lt_of_mem_take_of_mem_drop h.ascending hcut (h.mem_drop_of_hasSnapshot hstays))

/-- A `.tmp` directory is never among the names sorted. -/
theorem tmpName_notMem {d : Day} : tmpName d ∉ stampsAfter root day := by
  intro hmem
  rcases List.mem_cons.mp hmem with heq | hstamp
  · exact tmpName_ne_todayStamp heq
  · rw [mem_stampNames, looksLikeStamp_tmpName] at hstamp
    cases hstamp.1

/-- The `.tmp` directory of the day is gone: it was renamed. -/
theorem lookup_tmpName (h : Retained root keepDays day today sorted root') :
    root'.lookup (tmpName day) = none := by
  rw [h.lookup, if_neg fun hcut => tmpName_notMem (h.mem_cut_iff.mp hcut).1, lookupRenamed,
    if_neg tmpName_ne_todayStamp, if_pos rfl]

/-- Those of other days stay. -/
theorem hasLeftover_iff (h : Retained root keepDays day today sorted root') {d : Day} :
    HasLeftover root' d ↔ HasLeftover root d ∧ d ≠ day := by
  by_cases hday : d = day
  · constructor
    · rintro ⟨files, origin, hlookup⟩
      rw [hday, h.lookup_tmpName] at hlookup
      cases hlookup
    · exact fun hboth => absurd hday hboth.2
  · unfold HasLeftover
    rw [h.lookup_other tmpName_notMem fun heq => hday (tmpName_inj heq)]
    exact ⟨fun hleft => ⟨hleft, hday⟩, fun hleft => hleft.1⟩

/-- A stamp that was there stays unless it is cut off. -/
theorem lookup_of_not_cut (h : Retained root keepDays day today sorted root')
    (hname : name ∈ stampNames root)
    (hcut : name ∉ sorted.take (sorted.length - castSize keepDays)) :
    root'.lookup name = root.lookup name := by
  obtain ⟨hlooks, files, origin, hlookup⟩ := mem_stampNames.mp hname
  have hday : name ≠ todayStamp day := by
    rintro rfl
    rw [h.absent] at hlookup
    cases hlookup
  have htmp : name ≠ tmpName day := by
    rintro rfl
    rw [looksLikeStamp_tmpName] at hlooks
    cases hlooks
  rw [h.lookup, if_neg hcut, lookupRenamed, if_neg hday, if_neg htmp]

/-- What is cut off is gone. -/
theorem removed_of_mem_cut (h : Retained root keepDays day today sorted root')
    (hname : name ∈ stampNames root)
    (hcut : castSize keepDays ≤ (stampsAfter root day).countP (name < ·)) :
    root'.lookup name = none := by
  rw [h.lookup, if_pos (h.mem_cut_iff.mpr ⟨List.mem_cons_of_mem _ hname, hcut⟩)]

/-- Where the right ones are retained nothing was in the way. -/
theorem retainable_of_retainsRight (h : Retained root keepDays day today sorted root')
    (hright : RetainsRight root keepDays day root') : Retainable root keepDays day := by
  have htaken := (h.hasSnapshot_iff (Or.inr rfl)).mp hright.taken
  rw [h.mem_cut_iff, not_and, Nat.not_le] at htaken
  have hrecent := htaken List.mem_cons_self
  constructor
  -- A bound of 0 would cut off today's snapshot.
  · intro hzero
    have hcast := castSize_of_nonneg (Int.le_of_eq hzero.symm)
    omega
  -- With a negative bound the older snapshot stays, and there are two.
  · intro hneg d hd
    have hne : day ≠ d := by
      rintro rfl
      obtain ⟨files, origin, hlookup⟩ := hd
      rw [h.absent] at hlookup
      cases hlookup
    have hstays : HasSnapshot root' d := (h.hasSnapshot_iff (Or.inl hd)).mpr (h.not_cut_of_neg hneg)
    have hfew := hright.few [day, d] (by simpa using hne) (by
      intro d' hd'
      rcases List.mem_pair.mp hd' with rfl | rfl
      · exact hright.taken
      · exact hstays)
    simp only [List.length_cons, List.length_nil] at hfew
    omega
  · intro hpos
    have hcast := castSize_of_nonneg hpos.le
    omega
  -- A look-alike that is cut off is something removed that is no snapshot.
  · intro hpos name hname hundated
    by_contra hmany
    have hcast := castSize_of_nonneg hpos.le
    have hgone := h.removed_of_mem_cut hname (by omega)
    obtain ⟨hlooks, files, origin, hlookup⟩ := mem_stampNames.mp hname
    obtain ⟨-, d, hd | hd⟩ := hright.removed name _ hlookup hgone
    · exact hundated d hd
    · rw [hd, looksLikeStamp_tmpName] at hlooks
      cases hlooks
  · intro d hleft
    by_contra hday
    exact hright.clean d (h.hasLeftover_iff.mpr ⟨hleft, hday⟩)
  · intro entry hlookup
    exact (hright.removed _ entry hlookup h.lookup_tmpName).1

/-- Where nothing was in the way the right ones are retained. -/
theorem retainsRight_of_retainable (h : Retained root keepDays day today sorted root')
    (hbefore : Retainable root keepDays day) : RetainsRight root keepDays day root' := by
  -- Today's snapshot is not cut off: too few names come behind it.
  have hstays : HasSnapshot root' day := by
    rw [h.hasSnapshot_iff (Or.inr rfl)]
    intro hcut
    rcases Int.lt_or_gt_of_ne hbefore.nonzero with hneg | hpos
    · exact h.not_cut_of_neg hneg hcut
    · have hcast := castSize_of_nonneg hpos.le
      have hrecent := hbefore.recent hpos
      have hmany := (h.mem_cut_iff.mp hcut).2
      omega
  constructor
  · exact hstays
  · intro name entry hlookup hgone
    -- What is gone was a directory that looked like a stamp, or the day's own `.tmp`.
    by_cases hmem : name ∈ stampNames root
    · obtain ⟨-, files, origin, hdirectory⟩ := mem_stampNames.mp hmem
      rw [hdirectory] at hlookup
      cases hlookup
      refine ⟨rfl, ?_⟩
      by_contra hundated
      have hdates : ∀ d, name ≠ todayStamp d := fun d heq => hundated ⟨d, Or.inl heq⟩
      -- It was not cut off, so it is still there.
      have hnot : name ∉ sorted.take (sorted.length - castSize keepDays) := by
        intro hcut
        rcases Int.lt_or_gt_of_ne hbefore.nonzero with hneg | hpos
        · exact h.not_cut_of_neg hneg hcut
        · have hcast := castSize_of_nonneg hpos.le
          have hfewer := hbefore.lookalikes hpos name hmem hdates
          have hmany := (h.mem_cut_iff.mp hcut).2
          omega
      rw [h.lookup_of_not_cut hmem hnot, hdirectory] at hgone
      cases hgone
    · have hother : name ∉ stampsAfter root day := by
        intro hstamp
        rcases List.mem_cons.mp hstamp with rfl | hstamp
        · rw [h.absent] at hlookup
          cases hlookup
        · exact hmem hstamp
      by_cases htmp : name = tmpName day
      · exact ⟨hbefore.noFile entry (htmp ▸ hlookup), day, Or.inr htmp⟩
      · rw [h.lookup_other hother htmp, hlookup] at hgone
        cases hgone
  · intro days hnodup hdays
    rcases Int.lt_or_gt_of_ne hbefore.nonzero with hneg | hpos
    · -- There is no snapshot but today's.
      have hsubset : ∀ d ∈ days, d ∈ [day] := by
        intro d hd
        rcases List.mem_cons.mp (h.mem_stampsAfter_of_hasSnapshot (hdays d hd)) with heq | hstamp
        · exact List.mem_singleton.mpr (todayStamp_inj heq)
        · exact absurd (mem_stampNames.mp hstamp).2 (hbefore.alone hneg d)
      have hle := (hnodup.subperm hsubset).length_le
      rw [List.length_singleton] at hle
      omega
    · have hcast := castSize_of_nonneg hpos.le
      have hle := h.length_le hnodup hdays
      omega
  · exact fun d d' hd hgone hstays => h.before hd hgone hstays
  · intro d hleft
    obtain ⟨hleft, hday⟩ := h.hasLeftover_iff.mp hleft
    exact hday (hbefore.leftovers d hleft)

end Retained

/-- **The right snapshots are retained** just where nothing comes in the way of the sorting:
a positive bound, too few directories that are named like later days to push out today's, no
look-alike that would be pushed out, and no leftover of another day. -/
theorem retainsRight_iff {fate : SnapshotFate α} {sources : Sources α} {paths : Paths}
    (hlist : fate.list = .done) (hremove : ∀ name, (fate.remove name).answer = .done)
    (hrun : snapshotBeforeOpen fate sources paths keepDays day root = .ok true root') :
    RetainsRight root keepDays day root' ↔ Retainable root keepDays day := by
  obtain ⟨today, sorted, h⟩ := run_retained hlist hremove hrun
  exact ⟨h.retainable_of_retainsRight, h.retainsRight_of_retainable⟩

end Retention

/-! ### Two backup directories -/

/-- The day before the first one of the year. -/
def dayBefore : Day := ⟨2024, 12, 31, by decide, by decide, by decide⟩

/-- A snapshot with nothing in it. -/
def emptyDirectory : Entry ℕ := .directory (fun _ => none) ⟨none, []⟩

/-- An older snapshot, a note and what an attempt of the same day has left. -/
def tidyRoot : Root ℕ :=
  ((((∅ : Root ℕ).insert (todayStamp dayBefore) emptyDirectory).insert (cstr "note") .file).insert
    (tmpName newYear) emptyDirectory)

/-- In a tidy directory the older snapshot goes and today's stays. -/
theorem retainsRight_iff_tidyRoot : ∃ root',
    snapshotBeforeOpen calm exampleSources examplePaths 1 newYear tidyRoot = .ok true root' ∧
      RetainsRight tidyRoot 1 newYear root' := by
  have hruns : (match snapshotBeforeOpen calm exampleSources examplePaths 1 newYear tidyRoot with
      | .ok taken _ => taken
      | .error .. => false) = true := by decide +kernel
  cases hrun : snapshotBeforeOpen calm exampleSources examplePaths 1 newYear tidyRoot with
  | error e root' =>
    rw [hrun] at hruns
    cases hruns
  | ok taken root' =>
    rw [hrun] at hruns
    obtain rfl : taken = true := hruns
    refine ⟨root', rfl, (retainsRight_iff rfl (fun _ => rfl) hrun).mpr ?_⟩
    constructor
    · decide
    · intro hneg
      exact absurd hneg (by decide)
    · decide +kernel
    · intro _ name hname hundated
      have hstamps : stampNames tidyRoot = [todayStamp dayBefore] := by decide +kernel
      rw [hstamps, List.mem_singleton] at hname
      exact absurd hname (hundated dayBefore)
    · rintro d ⟨files, origin, hlookup⟩
      have hkeys : ∀ key ∈ tidyRoot.keys, key.length = 14 → key = tmpName newYear := by
        decide +kernel
      have hmem : tmpName d ∈ tidyRoot.keys :=
        AList.lookup_isSome.mp (Option.isSome_of_eq_some hlookup)
      exact tmpName_inj (hkeys _ hmem length_tmpName)
    · intro entry hlookup
      have hdirectory : (tidyRoot.lookup (tmpName newYear)).all Entry.isDirectory = true := by
        decide +kernel
      rw [hlookup] at hdirectory
      exact hdirectory

/-- The clock was a day ahead. -/
def futureRoot : Root ℕ := (∅ : Root ℕ).insert (todayStamp dayAfter) emptyDirectory

/-- The snapshot that is reported as taken is removed at once, as the oldest. -/
theorem futureRoot_prunesToday : ∃ root',
    snapshotBeforeOpen calm exampleSources examplePaths 1 newYear futureRoot = .ok true root' ∧
      ¬RetainsRight futureRoot 1 newYear root' := by
  have hruns : (match snapshotBeforeOpen calm exampleSources examplePaths 1 newYear futureRoot with
      | .ok taken root' => taken && (root'.lookup (todayStamp newYear)).isNone
      | .error .. => false) = true := by decide +kernel
  cases hrun : snapshotBeforeOpen calm exampleSources examplePaths 1 newYear futureRoot with
  | error e root' =>
    rw [hrun] at hruns
    cases hruns
  | ok taken root' =>
    rw [hrun] at hruns
    obtain ⟨rfl, hnone⟩ := Bool.and_eq_true_iff.mp hruns
    refine ⟨root', rfl, fun hright => ?_⟩
    obtain ⟨files, origin, hlookup⟩ := hright.taken
    rw [hlookup] at hnone
    cases hnone

end Backup

end Daichod
