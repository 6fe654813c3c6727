import Daichod.Engine.Uri

/-!
# Daichod.Properties.UriSecrecy

**Whether `RedactUri` hides every password**, and nothing else. It looks for the first
`':'` and the first `'@'` behind `scheme://`, wherever they stand, so a password with an
`'@'` is hidden up to there only, and a path with both is taken for credentials
(`redactUri_secret_iff`).
-/

namespace Daichod

/-- Delimiters stand in the password only: the user holds no `'@'` and no `'/'` (nor a
`':'`), the host part no `'@'`. -/
structure BookUri.Plain (u : BookUri) : Prop where
  user_atSign : '@' ∉ u.user
  user_slash : '/' ∉ u.user
  rest_atSign : '@' ∉ u.rest

/-- What the redacted URIs of two passwords show: the same, and everything but a password. -/
structure BookUri.Hides (u : BookUri) (p p' : List Char) : Prop where
  same : redactUri (u.withPassword p) = redactUri (u.withPassword p')
  preserved : ∃ mask, redactUri (u.withPassword p) = u.withPassword mask

/-- The part of a password from its first `'@'` on. -/
def fromAtSign (p : List Char) : List Char := p.drop (p.idxOf '@')

/-- A URI with a user and a password. -/
def HasPassword (uri : String) : Prop := ∃ u : BookUri, u.Plain ∧ ∃ p, uri = u.withPassword p

/-- Behind the first `"://"` no `':'` stands before the first `'@'`, or the mask already stands
between them. -/
def Unmarked (uri : String) : Prop :=
  ∀ scheme rest user password host, findScheme uri.toList = some (scheme, rest) →
    Marked rest user password host → password = "***".toList

/-- Of a plain URI's password there remains what stands from its first `'@'` on. -/
theorem BookUri.Plain.unredacted {u : BookUri} (h : u.Plain) (p : List Char) :
    u.unredacted p = fromAtSign p := by
  rw [BookUri.unredacted, if_neg h.user_atSign, fromAtSign]

/-- Scheme, user and host part are always kept. -/
theorem BookUri.Plain.redactUri {u : BookUri} (h : u.Plain) (p : List Char) :
    redactUri (u.withPassword p) = u.withPassword ("***".toList ++ fromAtSign p) := by
  rw [u.redactUri_withPassword, if_neg h.user_atSign, h.unredacted, BookUri.withPassword,
    BookUri.authority]
  congr 1
  simp

/-- So two passwords are told apart by these. -/
theorem BookUri.Plain.hides_iff {u : BookUri} (h : u.Plain) (p p' : List Char) :
    u.Hides p p' ↔ fromAtSign p = fromAtSign p' := by
  rw [← h.unredacted p, ← h.unredacted p', ← u.redactUri_eq_iff]
  exact ⟨Hides.same, fun hsame => ⟨hsame, _, h.redactUri p⟩⟩

/-- **When `RedactUri` leaves a URI as it is.** -/
theorem redactUri_eq_self_iff (uri : String) : redactUri uri = uri ↔ Unmarked uri := by
  -- without a scheme nothing is redacted
  cases hfind : findScheme uri.toList with
  | none =>
    have hself : redactUri uri = uri := by
      simp only [redactUri, hfind]
    refine ⟨fun _ => ?_, fun _ => hself⟩
    intro scheme rest user password host hsome
    rw [hfind] at hsome
    cases hsome
  | some found =>
    obtain ⟨scheme, rest⟩ := found
    constructor
    -- what was cut out was `***` already
    · intro hself scheme' rest' user password host hfind' hmarked
      obtain ⟨rfl, rfl⟩ : scheme = scheme' ∧ rest = rest' := by
        rw [hfind] at hfind'
        simpa using hfind'
      have hlist := congrArg String.toList ((redactUri_of_marked hfind hmarked).symm.trans hself)
      rw [String.toList_ofList, findScheme_some hfind, hmarked.eq] at hlist
      have htail := List.append_cancel_left (List.append_cancel_left hlist)
      exact (List.append_cancel_right (List.cons.inj htail).2).symm
    · intro hunmarked
      by_cases hmarked : ∃ user password host, Marked rest user password host
      · obtain ⟨user, password, host, hmarked⟩ := hmarked
        rw [redactUri_of_marked hfind hmarked, ← hunmarked _ _ _ _ _ hfind hmarked, ← hmarked.eq,
          ← findScheme_some hfind, String.ofList_toList]
      · push Not at hmarked
        exact redactUri_of_not_marked hfind hmarked

/-- **When `RedactUri` hides a password**: of two passwords it shows the same exactly when they
agree from their first `'@'` on; and a URI, with a password or without, it returns unchanged
exactly when behind the scheme no `':'` comes before the first `'@'`, wherever in the URI they
stand, or the mask is between them already. -/
theorem redactUri_secret_iff {u : BookUri} (hplain : u.Plain) (p p' : List Char) (uri : String) :
    (u.Hides p p' ↔ fromAtSign p = fromAtSign p') ∧ (redactUri uri = uri ↔ Unmarked uri) :=
  ⟨hplain.hides_iff p p', redactUri_eq_self_iff uri⟩

/-! ### A password with an at sign, and a path with one

The two kinds of URIs at which the redaction is wrong. -/

/-- The URI of the books is a plain one. -/
theorem booksUri_plain : booksUri.Plain := ⟨by decide, by decide, by decide⟩

/-- A book file with a time and an at sign in its name. -/
def timedBook : String := "sqlite3:///books/12:30@home.gnucash"

/-- What stands behind the scheme decides about the user. -/
theorem not_hasPassword_of_slash {uri : String} {scheme rest : List Char}
    (hfind : findScheme uri.toList = some (scheme, rest))
    (hslash : '/' ∈ rest.take (rest.idxOf ':')) : ¬HasPassword uri := by
  rintro ⟨u, hplain, p, rfl⟩
  rw [BookUri.withPassword, String.toList_ofList, findScheme_append u.scheme_plain] at hfind
  obtain ⟨-, rfl⟩ : u.scheme = scheme ∧ u.authority p = rest := by simpa using hfind
  rw [u.idxOf_colon, BookUri.authority, List.take_left] at hslash
  exact hplain.user_slash hslash

/-- A file's path, which begins behind the scheme, -/
theorem findScheme_timedBook : findScheme timedBook.toList
    = some ("sqlite3".toList, "/books/12:30@home.gnucash".toList) := by decide +kernel

/-- and has no password. -/
theorem timedBook_not_hasPassword : ¬HasPassword timedBook :=
  not_hasPassword_of_slash findScheme_timedBook (by decide)

/-- Both equivalences, at plain passwords and at a path with both marks. -/
theorem redactUri_secret_iff_booksUri :
    (booksUri.Hides "secret".toList "hunter2".toList ↔
      fromAtSign "secret".toList = fromAtSign "hunter2".toList) ∧
    (redactUri timedBook = timedBook ↔ Unmarked timedBook) :=
  redactUri_secret_iff booksUri_plain "secret".toList "hunter2".toList timedBook

/-- Passwords `secret@1` and `secret@2` are told apart, and a book file loses part of its name. -/
theorem password_shown :
    (booksUri.Plain ∧
      ¬booksUri.Hides "secret@1".toList "secret@2".toList) ∧
    ¬HasPassword timedBook ∧ redactUri timedBook ≠ timedBook := by
  refine ⟨⟨booksUri_plain, ?_⟩, timedBook_not_hasPassword, ?_⟩
  · rw [booksUri_plain.hides_iff]
    decide
  · have hmarked : Marked "/books/12:30@home.gnucash".toList "/books/12".toList "30".toList
        "home.gnucash".toList := ⟨by decide, by decide, by decide, by decide⟩
    rw [Ne, redactUri_eq_self_iff]
    intro hunmarked
    exact absurd (hunmarked _ _ _ _ _ findScheme_timedBook hmarked) (by decide)

end Daichod
