import Daichod.Main.Locks

/-!
# Daichod.Properties.BookIdentity

**Whether the book lock ignores credentials.** `StripCredentials` ends the userinfo of a
postgres URI at its first `'@'`, while a password may hold one itself: what is left of the
userinfo then stays part of the book's identity (`stripCredentials_postgresUri`). Two
daemons on one book share a lock exactly when nothing or the same is left of both
(`oneWriter_iff`).
-/

namespace Daichod

/-- A postgres URI with a userinfo: user, optionally with a password. -/
def postgresUri (userinfo rest : CString) : CString :=
  cstr "postgres://" ++ userinfo ++ 0x40 :: rest

/-- What `StripCredentials` leaves of a userinfo: nothing of one without `'@'` and `'/'`, the
part behind the first `'@'`, and all of it when a `'/'` comes first. -/
def leftOver (userinfo : CString) : CString :=
  let user := userinfo.takeWhile (· ≠ 0x40)
  if 0x2F ∈ user then userinfo ++ [0x40]
  else if user.length = userinfo.length then []
  else userinfo.drop (user.length + 1) ++ [0x40]

/-- Two daemons with these options use one lock for the book, so that they are never both
past `AcquireLocks`, whatever else runs beside them. -/
def OneWriter (sha256 : CString → CString) (o o' : Options) : Prop :=
  o.bookLockPath sha256 = o'.bookLockPath sha256 ∧
  ∀ (π : Type) [DecidableEq π] (options : π → Options) (p p' : π), p ≠ p' → options p = o →
    options p' = o' → ∀ events : List (LockTable.Event π),
    ¬((Machine.run (LockTable.step sha256 options) .initial events).stage p = .bothLocked ∧
      (Machine.run (LockTable.step sha256 options) .initial events).stage p' = .bothLocked)

/-! ### What is hashed

The lock's name is a hash of the URI without its userinfo. What `StripCredentials` takes off is
computed for any userinfo, with an `'@'` in it or without. -/

/-- A postgres URI is split behind its scheme. -/
theorem splitScheme_postgres (authority : CString) :
    splitScheme (cstr "postgres://" ++ authority) = some (cstr "postgres", authority) := rfl

/-- What is taken off ends at the first `'@'`; the rest of the userinfo is left. -/
theorem stripCredentials_postgresUri (userinfo rest : CString) :
    stripCredentials (postgresUri userinfo rest)
      = cstr "postgres://" ++ (leftOver userinfo ++ rest) := by
  have hauthority : postgresUri userinfo rest
      = cstr "postgres://" ++ (userinfo ++ 0x40 :: rest) := List.append_assoc _ _ _
  have huser : (userinfo ++ 0x40 :: rest).takeWhile (· ≠ 0x40)
      = userinfo.takeWhile (· ≠ 0x40) := by
    rw [List.takeWhile_append]
    split
    · next hall =>
      have hwhole : userinfo.takeWhile (· ≠ 0x40) = userinfo :=
        (List.takeWhile_prefix _).eq_of_length hall
      rw [hwhole, List.takeWhile_cons_of_neg (by simp), List.append_nil]
    · rfl
  have hle : (userinfo.takeWhile (· ≠ 0x40)).length ≤ userinfo.length :=
    (List.takeWhile_prefix _).length_le
  rw [hauthority, stripCredentials, splitScheme_postgres]
  simp only [huser, leftOver]
  have hat : ¬(userinfo.takeWhile (· ≠ 0x40)).length = (userinfo ++ 0x40 :: rest).length := by
    simp only [List.length_append, List.length_cons]
    omega
  -- a slash before the first `'@'` ends the authority, and nothing is taken off
  by_cases hslash : 0x2F ∈ userinfo.takeWhile (· ≠ 0x40)
  · rw [if_pos (Or.inr hslash), if_pos hslash, List.append_assoc]
    rfl
  · rw [if_neg (by rintro (h | h); exacts [hat h, hslash h]), if_neg hslash]
    have hscheme : cstr "postgres" ++ cstr "://" = cstr "postgres://" := rfl
    rw [hscheme]
    congr 1
    by_cases hall : (userinfo.takeWhile (· ≠ 0x40)).length = userinfo.length
    · rw [if_pos hall, hall, List.nil_append, List.drop_append]
      simp
    · rw [if_neg hall, List.drop_append_of_le_length (by omega), List.append_assoc]
      rfl

/-! ### The lock's path

A postgres book has no path of its own, so its lock stands beside the journal, under the hash. -/

/-- A postgres URI has no path. -/
theorem bookPath_postgresUri {options : Options} {userinfo rest : CString}
    (h : options.bookUri = postgresUri userinfo rest) : options.bookPath = [] := by
  have hscheme : Options.kPrefix.isPrefixOf options.bookUri = false := by
    rw [h]
    rfl
  simp [Options.bookPath, hscheme]

/-- Names in one directory are paths apart. -/
theorem joinPath_inj {directory a b : CString} :
    joinPath directory a = joinPath directory b ↔ a = b := by
  unfold joinPath
  split <;> simp

variable {sha256 : CString → CString} {o o' : Options} {userinfo userinfo' rest : CString}

/-- In one journal directory, the lock is the digest of the stripped URI. -/
theorem bookLockPath_eq_iff (huri : o.bookUri = postgresUri userinfo rest)
    (huri' : o'.bookUri = postgresUri userinfo' rest)
    (hdirectory : parentPath o.journalPath = parentPath o'.journalPath) :
    o.bookLockPath sha256 = o'.bookLockPath sha256 ↔ o.digest sha256 = o'.digest sha256 := by
  unfold Options.bookLockPath
  rw [bookPath_postgresUri huri, bookPath_postgresUri huri', hdirectory]
  simp [joinPath_inj]

/-- **When two daemons on one postgres book have one lock**: exactly when `StripCredentials`
leaves the same of both userinfos, given that the digests of two different URIs differ. -/
theorem oneWriter_iff (huri : o.bookUri = postgresUri userinfo rest)
    (huri' : o'.bookUri = postgresUri userinfo' rest)
    (hdirectory : parentPath o.journalPath = parentPath o'.journalPath)
    (hdigest : o.digest sha256 = o'.digest sha256 →
      stripCredentials o.bookUri = stripCredentials o'.bookUri) :
    OneWriter sha256 o o' ↔ leftOver userinfo = leftOver userinfo' := by
  have hstripped : stripCredentials o.bookUri = stripCredentials o'.bookUri ↔
      leftOver userinfo = leftOver userinfo' := by
    rw [huri, huri', stripCredentials_postgresUri, stripCredentials_postgresUri]
    simp
  rw [← hstripped]
  constructor
  · intro hlocks
    obtain ⟨hpath, _⟩ := hlocks
    exact hdigest ((bookLockPath_eq_iff huri huri' hdirectory).mp hpath)
  · intro heq
    have hpath : o.bookLockPath sha256 = o'.bookLockPath sha256 := by
      rw [bookLockPath_eq_iff huri huri' hdirectory, Options.digest, heq, Options.digest]
    refine ⟨hpath, ?_⟩
    intro π _ options p p' hne ho ho' events
    exact LockTable.not_both_past hne (by rw [ho, ho', hpath]) events

/-! ### Two accounts on one book -/

section Accounts

/-- SHA-256, on the two texts hashed below. -/
def sha256Books (data : CString) : CString :=
  if data = cstr "postgres://db/books" then
    [0x2D, 0x6A, 0x31, 0xA9, 0xEA, 0x23, 0x93, 0x11, 0xD4, 0x9D, 0x4B, 0xA5, 0x26, 0x88, 0x12,
      0xEF, 0x4A, 0x32, 0x10, 0xDE, 0x01, 0x52, 0xC3, 0xA0, 0x4E, 0x45, 0x1B, 0x50, 0x68, 0x1C,
      0x77, 0xA4]
  else if data = cstr "postgres://ss@db/books" then
    [0xCA, 0xD2, 0xE4, 0x73, 0x9D, 0x42, 0x9A, 0x48, 0x1D, 0xE3, 0x48, 0x18, 0x7E, 0xEB, 0xC5,
      0xDA, 0x64, 0xD3, 0xE1, 0x8A, 0xEC, 0x32, 0x61, 0xA6, 0x80, 0x69, 0xFF, 0x31, 0x8C, 0x02,
      0xA4, 0x74]
  else []

/-- A daemon on the postgres book, with a socket and a journal of its own. -/
def booksOptions (userinfo name : String) : Options :=
  { bookUri := postgresUri (cstr userinfo) (cstr "db/books")
    socketPath := cstr "/run/" ++ cstr name
    journalPath := cstr "/var/books/" ++ cstr name }

/-- A password with an `'@'` in it, and one without. -/
def twoAccounts : Bool → Options
  | true => booksOptions "alice:p@ss" "alice"
  | false => booksOptions "bob:secret" "bob"

/-- Both daemons take both their locks. -/
def bothStart : List (LockTable.Event Bool) :=
  [.socketLock true {}, .socketLock false {}, .bookLock true {}, .bookLock false {}]

/-- Two daemons on one book, both past `AcquireLocks`. -/
theorem two_writers :
    ((Machine.run (LockTable.step sha256Books twoAccounts) .initial bothStart).stage true
        = .bothLocked ∧
      (Machine.run (LockTable.step sha256Books twoAccounts) .initial bothStart).stage false
        = .bothLocked) ∧
      ¬OneWriter sha256Books (twoAccounts true) (twoAccounts false) := by
  have hboth : (Machine.run (LockTable.step sha256Books twoAccounts) .initial bothStart).stage true
        = .bothLocked ∧
      (Machine.run (LockTable.step sha256Books twoAccounts) .initial bothStart).stage false
        = .bothLocked := by decide +kernel
  exact ⟨hboth, fun h => h.2 Bool twoAccounts true false (by decide) rfl rfl bothStart hboth⟩

/-- Passwords without one: nothing is left, and there is one lock. -/
theorem oneWriter_iff_plain :
    OneWriter sha256Books (booksOptions "alice:secret" "alice") (booksOptions "bob" "bob") ↔
      leftOver (cstr "alice:secret") = leftOver (cstr "bob") :=
  oneWriter_iff rfl rfl (by decide +kernel) fun _ => by decide +kernel

end Accounts

end Daichod
