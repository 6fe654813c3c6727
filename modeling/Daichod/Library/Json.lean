import Mathlib.Data.List.Basic
import Mathlib.Tactic.Linarith

/-!
# Daichod.Library.Json

The part of the JSON grammar (RFC 8259) that an object of string members needs, as a
relation between a text in bytes and what it stands for, and a printer that does not escape.

`isObject_print_iff` says when that printer is right: a text reads back as the members
printed exactly when none of them holds a character that needs an escape, or bytes that are
no UTF-8. The proof measures: an escape is longer than the character it stands for, so a
text as short as `print` makes it has room for none.
-/

namespace Json

/-- A text in UTF-8. -/
def utf8 (text : List Char) : List UInt8 := text.flatMap String.utf8EncodeChar

/-- `unescaped`. -/
def Unescaped (c : Char) : Prop := 0x20 ≤ c.toNat ∧ c ≠ '"' ∧ c ≠ '\\'

instance (c : Char) : Decidable (Unescaped c) :=
  inferInstanceAs (Decidable (0x20 ≤ c.toNat ∧ c ≠ '"' ∧ c ≠ '\\'))

/-- Bytes that stand for themselves inside a JSON string. -/
def Plain (bytes : List UInt8) : Prop :=
  ∃ text : List Char, (∀ c ∈ text, Unescaped c) ∧ bytes = utf8 text

/-- `ws`. -/
def Whitespace (bytes : List UInt8) : Prop :=
  ∀ b ∈ bytes, b = 0x20 ∨ b = 0x09 ∨ b = 0x0A ∨ b = 0x0D

/-- The value of a hexadecimal digit. -/
def hexDigit (b : UInt8) : Option ℕ :=
  if 0x30 ≤ b ∧ b ≤ 0x39 then some (b.toNat - 0x30)
  else if 0x41 ≤ b ∧ b ≤ 0x46 then some (b.toNat - 0x41 + 10)
  else if 0x61 ≤ b ∧ b ≤ 0x66 then some (b.toNat - 0x61 + 10)
  else none

/-- The value of four hexadecimal digits. -/
def hex4 (a b c d : UInt8) : Option ℕ := do
  return (((← hexDigit a) * 16 + (← hexDigit b)) * 16 + (← hexDigit c)) * 16 + (← hexDigit d)

/-- The two-character escapes, without their backslash, and what they stand for. -/
def simpleEscapes : List (UInt8 × Char) :=
  [(0x22, '"'), (0x5C, '\\'), (0x2F, '/'), (0x62, '\x08'), (0x66, '\x0C'), (0x6E, '\n'),
    (0x72, '\r'), (0x74, '\t')]

/-- An escape and the character it stands for. -/
inductive Escape : List UInt8 → Char → Prop
  | simple {b : UInt8} {c : Char} (h : (b, c) ∈ simpleEscapes) : Escape [0x5C, b] c
  | unicode {b₁ b₂ b₃ b₄ : UInt8} {c : Char} (h : hex4 b₁ b₂ b₃ b₄ = some c.toNat) :
      Escape [0x5C, 0x75, b₁, b₂, b₃, b₄] c
  | surrogates {b₁ b₂ b₃ b₄ b₅ b₆ b₇ b₈ : UInt8} {high low : ℕ} {c : Char}
      (hhigh : hex4 b₁ b₂ b₃ b₄ = some high) (hlow : hex4 b₅ b₆ b₇ b₈ = some low)
      (hrange : 0xD800 ≤ high ∧ high < 0xDC00 ∧ 0xDC00 ≤ low ∧ low < 0xE000)
      (hc : c.toNat = 0x10000 + (high - 0xD800) * 0x400 + (low - 0xDC00)) :
      Escape [0x5C, 0x75, b₁, b₂, b₃, b₄, 0x5C, 0x75, b₅, b₆, b₇, b₈] c

/-- What stands between the quotation marks, and its value in UTF-8. -/
inductive StringBody : List UInt8 → List UInt8 → Prop
  | nil : StringBody [] []
  | char {c : Char} {raw value : List UInt8} (hc : Unescaped c) (h : StringBody raw value) :
      StringBody (String.utf8EncodeChar c ++ raw) (String.utf8EncodeChar c ++ value)
  | escape {e : List UInt8} {c : Char} {raw value : List UInt8} (he : Escape e c)
      (h : StringBody raw value) : StringBody (e ++ raw) (String.utf8EncodeChar c ++ value)

/-- `string`. -/
inductive IsString : List UInt8 → List UInt8 → Prop
  | intro {raw value : List UInt8} (h : StringBody raw value) :
      IsString (0x22 :: raw ++ [0x22]) value

/-- `member`, with a string as its value and the whitespace around it. -/
inductive IsMember : List UInt8 → List UInt8 × List UInt8 → Prop
  | intro {w₁ w₂ w₃ w₄ key value k v : List UInt8} (hw₁ : Whitespace w₁) (hk : IsString key k)
      (hw₂ : Whitespace w₂) (hw₃ : Whitespace w₃) (hv : IsString value v) (hw₄ : Whitespace w₄) :
      IsMember (w₁ ++ key ++ w₂ ++ 0x3A :: w₃ ++ value ++ w₄) (k, v)

/-- `member *( value-separator member )`. -/
inductive AreMembers : List UInt8 → List (List UInt8 × List UInt8) → Prop
  | one {text : List UInt8} {m : List UInt8 × List UInt8} (h : IsMember text m) :
      AreMembers text [m]
  | cons {text rest : List UInt8} {m : List UInt8 × List UInt8}
      {ms : List (List UInt8 × List UInt8)} (h : IsMember text m) (hrest : AreMembers rest ms) :
      AreMembers (text ++ 0x2C :: rest) (m :: ms)

/-- An object of string members, in the order of the text. -/
inductive IsObject : List UInt8 → List (List UInt8 × List UInt8) → Prop
  | intro {w w' text : List UInt8} {ms : List (List UInt8 × List UInt8)} (hw : Whitespace w)
      (h : AreMembers text ms) (hw' : Whitespace w') :
      IsObject (w ++ 0x7B :: text ++ 0x7D :: w') ms

/-! ### Escapes are longer than what they stand for -/

/-- An escape takes more bytes than its character. -/
theorem Escape.length_lt {e : List UInt8} {c : Char} (h : Escape e c) : c.utf8Size < e.length := by
  have hsize := c.utf8Size_le_four
  cases h with
  | simple h =>
    have hone : ∀ p ∈ simpleEscapes, p.2.utf8Size = 1 := by decide
    have hc := hone _ h
    simp only at hc
    simp [hc]
  | unicode h =>
    simp only [List.length_cons, List.length_nil]
    omega
  | surrogates hhigh hlow hrange hc =>
    simp only [List.length_cons, List.length_nil]
    omega

/-- No text is shorter than what it stands for. -/
theorem StringBody.length_le {raw value : List UInt8} (h : StringBody raw value) :
    value.length ≤ raw.length := by
  induction h with
  | nil => exact Nat.le_refl _
  | char hc h ih =>
    simp only [List.length_append]
    omega
  | escape he h ih =>
    have := he.length_lt
    simp only [List.length_append, String.length_utf8EncodeChar]
    omega

/-- A string body as short as its value has no escapes. -/
theorem StringBody.plain {raw value : List UInt8} (h : StringBody raw value)
    (hlength : raw.length ≤ value.length) : Plain value := by
  induction h with
  | nil => exact ⟨[], by simp, rfl⟩
  | @char c raw value hc h ih =>
    simp only [List.length_append] at hlength
    obtain ⟨text, htext, rfl⟩ := ih (by omega)
    refine ⟨c :: text, ?_, rfl⟩
    intro c' hc'
    rcases List.mem_cons.mp hc' with rfl | hc'
    · exact hc
    · exact htext c' hc'
  | escape he h ih =>
    have hlt := he.length_lt
    have hle := h.length_le
    simp only [List.length_append, String.length_utf8EncodeChar] at hlength
    omega

/-- Plain bytes are their own string body. -/
theorem Plain.stringBody {bytes : List UInt8} (h : Plain bytes) : StringBody bytes bytes := by
  obtain ⟨text, htext, rfl⟩ := h
  induction text with
  | nil => exact .nil
  | cons c text ih =>
    exact .char (htext c List.mem_cons_self)
      (ih fun c' hc' => htext c' (List.mem_cons_of_mem _ hc'))

/-- With the quotes around it, and it is plain if it is not longer than that. -/
theorem IsString.length_le {text value : List UInt8} (h : IsString text value) :
    value.length + 2 ≤ text.length ∧ (text.length ≤ value.length + 2 → Plain value) := by
  cases h with
  | intro h =>
    have hle := h.length_le
    simp only [List.cons_append, List.length_cons, List.length_append, List.length_nil]
    exact ⟨by omega, fun hlength => h.plain (by omega)⟩

/-! ### Bytes of plain texts -/

/-- A byte of a character is the character itself, or no ASCII at all. -/
theorem mem_utf8EncodeChar {c : Char} {b : UInt8} (hb : b ∈ String.utf8EncodeChar c) :
    b.toNat = c.toNat ∨ 0x80 ≤ b.toNat := by
  have hc : c.val.toNat = c.toNat := rfl
  simp only [String.utf8EncodeChar, hc] at hb
  split_ifs at hb <;> simp only [List.mem_cons, List.not_mem_nil, or_false] at hb
  · left
    rw [hb, UInt8.toNat_ofNat']
    omega
  · right
    rcases hb with rfl | rfl <;> rw [UInt8.toNat_ofNat'] <;> omega
  · right
    rcases hb with rfl | rfl | rfl <;> rw [UInt8.toNat_ofNat'] <;> omega
  · right
    rcases hb with rfl | rfl | rfl | rfl <;> rw [UInt8.toNat_ofNat'] <;> omega

/-- No byte of a plain text is a control character, a quotation mark or a backslash. -/
theorem Plain.byte {bytes : List UInt8} (h : Plain bytes) {b : UInt8} (hb : b ∈ bytes) :
    0x20 ≤ b.toNat ∧ b ≠ 0x22 ∧ b ≠ 0x5C := by
  obtain ⟨text, htext, rfl⟩ := h
  obtain ⟨c, hc, hbc⟩ := List.mem_flatMap.mp hb
  obtain ⟨hcontrol, hquote, hbackslash⟩ := htext c hc
  rcases mem_utf8EncodeChar hbc with heq | hlarge
  · refine ⟨by omega, ?_, ?_⟩
    · rintro rfl
      exact hquote (Char.toNat_inj.mp heq.symm)
    · rintro rfl
      exact hbackslash (Char.toNat_inj.mp heq.symm)
  · refine ⟨by omega, ?_, ?_⟩
    · rintro rfl
      exact absurd hlarge (by decide)
    · rintro rfl
      exact absurd hlarge (by decide)

/-! ### Measuring an object -/

/-- Both parts of a member are plain. -/
def PlainMember (m : List UInt8 × List UInt8) : Prop := Plain m.1 ∧ Plain m.2

/-- The least room a member takes, with the comma or brace behind it. -/
def memberSize (m : List UInt8 × List UInt8) : ℕ := m.1.length + m.2.length + 6

/-- A member takes the bytes of its key and value and the punctuation between them, and more only
with an escape or a blank. -/
theorem IsMember.length_le {text : List UInt8} {m : List UInt8 × List UInt8}
    (h : IsMember text m) :
    memberSize m ≤ text.length + 1 ∧ (text.length + 1 ≤ memberSize m → PlainMember m) := by
  cases h with
  | intro hw₁ hk hw₂ hw₃ hv hw₄ =>
    obtain ⟨hkle, hkplain⟩ := hk.length_le
    obtain ⟨hvle, hvplain⟩ := hv.length_le
    simp only [memberSize, List.length_append, List.length_cons]
    exact ⟨by omega, fun hlength => ⟨hkplain (by omega), hvplain (by omega)⟩⟩

/-- Members and the commas between them. -/
theorem AreMembers.length_le {text : List UInt8} {ms : List (List UInt8 × List UInt8)}
    (h : AreMembers text ms) :
    (ms.map memberSize).sum ≤ text.length + 1 ∧
      (text.length + 1 ≤ (ms.map memberSize).sum → ∀ m ∈ ms, PlainMember m) := by
  induction h with
  | one h =>
    obtain ⟨hle, hplain⟩ := h.length_le
    simp only [List.map_cons, List.map_nil, List.sum_cons, List.sum_nil, Nat.add_zero,
      List.mem_singleton, forall_eq]
    exact ⟨hle, hplain⟩
  | cons h hrest ih =>
    obtain ⟨hle, hplain⟩ := h.length_le
    obtain ⟨hrestle, hrestplain⟩ := ih
    simp only [List.map_cons, List.sum_cons, List.length_append, List.length_cons,
      List.mem_cons, forall_eq_or_imp]
    refine ⟨by omega, fun hlength => ⟨hplain (by omega), hrestplain (by omega)⟩⟩

/-- **An object as short as its members allow** has plain members. -/
theorem IsObject.length_le {text : List UInt8} {ms : List (List UInt8 × List UInt8)}
    (h : IsObject text ms) :
    (ms.map memberSize).sum + 1 ≤ text.length ∧
      (text.length ≤ (ms.map memberSize).sum + 1 → ∀ m ∈ ms, PlainMember m) := by
  cases h with
  | intro hw h hw' =>
    obtain ⟨hle, hplain⟩ := h.length_le
    simp only [List.length_append, List.length_cons]
    exact ⟨by omega, fun hlength => hplain (by omega)⟩

/-- White space behind an object is no part of it. -/
theorem isObject_append_newline {text : List UInt8} {ms : List (List UInt8 × List UInt8)} :
    IsObject (text ++ [0x0A]) ms ↔ IsObject text ms := by
  constructor
  · intro h
    generalize hall : text ++ [0x0A] = all at h
    cases h with
    | @intro w w' body ms hw h hw' =>
      -- What follows the last brace is blank, so that the line feed is the end of it.
      rcases List.eq_nil_or_concat w' with rfl | ⟨w'', b, rfl⟩
      · -- The text would end in a brace.
        obtain ⟨-, hlast⟩ := List.append_inj' hall rfl
        cases hlast
      · have hsplit : text ++ [0x0A] = (w ++ 0x7B :: body ++ 0x7D :: w'') ++ [b] := by
          rw [hall]
          simp
        obtain ⟨rfl, -⟩ := List.append_inj' hsplit rfl
        exact .intro hw h fun x hx => hw' x (by simp [hx])
  · intro h
    cases h with
    | @intro w w' body ms hw h hw' =>
      have heq : w ++ 0x7B :: body ++ 0x7D :: w' ++ [0x0A]
          = w ++ 0x7B :: body ++ 0x7D :: (w' ++ [0x0A]) := by simp
      rw [heq]
      refine .intro hw h fun x hx => ?_
      rcases List.mem_append.mp hx with hx | hx
      · exact hw' x hx
      · rw [List.mem_singleton.mp hx]
        simp

/-! ### What stands in front of an object -/

/-- A byte that cannot come behind a string: no white space, colon, comma or closing brace. -/
def NoFollow (b : UInt8) : Prop :=
  ¬(b = 0x20 ∨ b = 0x09 ∨ b = 0x0A ∨ b = 0x0D) ∧ b ≠ 0x3A ∧ b ≠ 0x2C ∧ b ≠ 0x7D

instance (b : UInt8) : Decidable (NoFollow b) :=
  inferInstanceAs (Decidable (¬(b = 0x20 ∨ b = 0x09 ∨ b = 0x0A ∨ b = 0x0D) ∧ _))

/-- Nowhere a brace, a quotation mark and `b`: outside of strings a brace stands only at the
front of an object, and inside of one the quotation mark would end it. -/
def Clean (b : UInt8) (text : List UInt8) : Prop :=
  ∀ before behind, text ≠ before ++ 0x7B :: 0x22 :: b :: behind

section Clean

variable {b x : UInt8} {text tail raw value key : List UInt8}

/-- Nothing follows in an empty text. -/
theorem Clean.nil : Clean b [] := by
  intro before behind h
  simp at h

/-- Such a place is not made by a byte that is no brace. -/
theorem Clean.cons (h : Clean b text) (hx : x ≠ 0x7B) : Clean b (x :: text) := by
  intro before behind heq
  cases before with
  | nil =>
    rw [List.nil_append, List.cons.injEq] at heq
    exact hx heq.1
  | cons y before =>
    rw [List.cons_append, List.cons.injEq] at heq
    exact h before behind heq.2

/-- What has no brace may stand in front. -/
theorem Clean.append {front : List UInt8} (h : Clean b text) (hfront : ∀ x ∈ front, x ≠ 0x7B) :
    Clean b (front ++ text) := by
  induction front with
  | nil => exact h
  | cons x front ih =>
    exact (ih fun y hy => hfront y (List.mem_cons_of_mem _ hy)).cons (hfront x List.mem_cons_self)

/-- A blank is no brace. -/
theorem Whitespace.ne_brace {w : List UInt8} (hw : Whitespace w) : ∀ x ∈ w, x ≠ 0x7B := by
  rintro x hx rfl
  rcases hw _ hx with h | h | h | h <;> exact absurd h (by decide)

/-- The rest of a text from within a string: it does not go on with the quotation mark and
`b`. -/
structure Inside (b : UInt8) (text : List UInt8) : Prop where
  clean : Clean b text
  front : ∀ behind, text ≠ 0x22 :: b :: behind

/-- Within a string any byte but a quotation mark may come, braces too. -/
theorem Inside.cons (h : Inside b text) (hx : x ≠ 0x22) : Inside b (x :: text) := by
  refine ⟨fun before behind heq => ?_, fun behind heq => ?_⟩
  · cases before with
    | nil =>
      rw [List.nil_append, List.cons.injEq] at heq
      exact h.front behind heq.2
    | cons y before =>
      rw [List.cons_append, List.cons.injEq] at heq
      exact h.clean before behind heq.2
  · rw [List.cons.injEq] at heq
    exact hx heq.1

/-- Inside a string, what has no quote may stand in front. -/
theorem Inside.append {front : List UInt8} (h : Inside b text) (hfront : ∀ x ∈ front, x ≠ 0x22) :
    Inside b (front ++ text) := by
  induction front with
  | nil => exact h
  | cons x front ih =>
    exact (ih fun y hy => hfront y (List.mem_cons_of_mem _ hy)).cons (hfront x List.mem_cons_self)

/-- The backslash of an escape keeps its second byte from ending the string. -/
theorem Inside.escape {e : List UInt8} {c : Char} (he : Escape e c) (h : Clean b text)
    (hinside : Inside b text) : Inside b (e ++ text) := by
  have hbackslash : ∀ {t : List UInt8}, Clean b t → Inside b (0x5C :: t) := fun ht =>
    ⟨ht.cons (by decide), fun behind heq => absurd (List.cons.inj heq).1 (by decide)⟩
  have hdigit : ∀ {x : UInt8} {n : ℕ}, hexDigit x = some n → x ≠ 0x22 := by
    rintro x n hx rfl
    have hnone : hexDigit 0x22 = none := by decide
    rw [hnone] at hx
    cases hx
  have hdigits : ∀ {b₁ b₂ b₃ b₄ : UInt8} {n : ℕ}, hex4 b₁ b₂ b₃ b₄ = some n →
      ∀ x ∈ [b₁, b₂, b₃, b₄], x ≠ 0x22 := by
    intro b₁ b₂ b₃ b₄ n hn x hx
    simp only [hex4, Option.pure_def, Option.bind_eq_bind, Option.bind_eq_some_iff] at hn
    obtain ⟨n₁, h₁, n₂, h₂, n₃, h₃, n₄, h₄, -⟩ := hn
    simp only [List.mem_cons, List.not_mem_nil, or_false] at hx
    rcases hx with rfl | rfl | rfl | rfl
    · exact hdigit h₁
    · exact hdigit h₂
    · exact hdigit h₃
    · exact hdigit h₄
  -- A backslash may be followed by a quote, but never by a brace; hex digits are neither.
  cases he with
  | @simple x c hmem =>
    have hbrace : ∀ p ∈ simpleEscapes, p.1 ≠ 0x7B := by decide
    exact hbackslash (h.cons (hbrace _ hmem))
  | unicode hfour =>
    have hrest := (hinside.append (hdigits hfour)).cons (x := 0x75) (by decide)
    exact hbackslash hrest.clean
  | surrogates hhigh hlow hrange hc =>
    have hsecond := (hinside.append (hdigits hlow)).cons (x := 0x75) (by decide)
    have hfirst := ((hbackslash hsecond.clean).append (hdigits hhigh)).cons (x := 0x75) (by decide)
    exact hbackslash hfirst.clean

/-- A string, from its first byte to its closing quotation mark. -/
theorem StringBody.inside (h : StringBody raw value) (htail : Clean b tail)
    (hhead : tail.head? ≠ some b) : Inside b (raw ++ 0x22 :: tail) := by
  induction h with
  | nil =>
    refine ⟨htail.cons (by decide), fun behind heq => hhead ?_⟩
    rw [List.nil_append, List.cons.injEq] at heq
    rw [heq.2]
    rfl
  | @char c raw value hc h ih =>
    rw [List.append_assoc]
    refine ih.append fun x hx => ?_
    exact ((Plain.byte ⟨[c], by simpa using hc, by simp [utf8]⟩ hx)).2.1
  | escape he h ih =>
    rw [List.append_assoc]
    exact Inside.escape he ih.clean ih

/-- A string in front of a text that may stand there. -/
theorem IsString.clean (h : IsString text value) (htail : Clean b tail)
    (hhead : tail.head? ≠ some b) : Clean b (text ++ tail) := by
  cases h with
  | @intro raw value h =>
    have hinside := (h.inside htail hhead).clean.cons (x := 0x22) (by decide)
    simpa using hinside

/-- Behind white space, something that may follow a string does. -/
theorem head?_append_whitespace {w : List UInt8} (hw : Whitespace w) (hb : NoFollow b)
    (hhead : tail.head? ≠ some b) : (w ++ tail).head? ≠ some b := by
  cases w with
  | nil => exact hhead
  | cons x w =>
    intro h
    rw [List.cons_append, List.head?_cons, Option.some.injEq] at h
    exact hb.1 (h ▸ hw x List.mem_cons_self)

/-- A member in front of it. -/
theorem IsMember.clean {m : List UInt8 × List UInt8} (h : IsMember text m) (hb : NoFollow b)
    (htail : Clean b tail) (hhead : tail.head? ≠ some b) : Clean b (text ++ tail) := by
  cases h with
  | @intro w₁ w₂ w₃ w₄ key value k v hw₁ hk hw₂ hw₃ hv hw₄ =>
    have hcolon : (0x3A :: (w₃ ++ (value ++ (w₄ ++ tail)))).head? ≠ some b := by
      rw [List.head?_cons, Ne, Option.some.injEq]
      exact hb.2.1.symm
    -- From the end of the member to its front.
    have hbehind := hv.clean (htail.append hw₄.ne_brace)
      (head?_append_whitespace hw₄ hb hhead)
    have hvalue := (hbehind.append hw₃.ne_brace).cons (x := 0x3A) (by decide)
    have hkey := hk.clean (hvalue.append hw₂.ne_brace) (head?_append_whitespace hw₂ hb hcolon)
    simpa using hkey.append hw₁.ne_brace

/-- Members in front of it, the last one first. -/
theorem AreMembers.clean {ms : List (List UInt8 × List UInt8)} (h : AreMembers text ms)
    (hb : NoFollow b) (htail : Clean b tail) (hhead : tail.head? ≠ some b) :
    Clean b (text ++ tail) := by
  induction h with
  | one h => exact h.clean hb htail hhead
  | @cons text rest m ms h hrest ih =>
    have hcomma : (0x2C :: (rest ++ tail)).head? ≠ some b := by
      rw [List.head?_cons, Ne, Option.some.injEq]
      exact hb.2.2.1.symm
    simpa using h.clean hb (ih.cons (x := 0x2C) (by decide)) hcomma

end Clean

/-- **Only white space stands in front of an object.** -/
theorem isObject_append_iff {w rest : List UInt8} {b : UInt8} (hb : NoFollow b)
    {ms : List (List UInt8 × List UInt8)} :
    IsObject (w ++ 0x7B :: 0x22 :: b :: rest) ms ↔
      Whitespace w ∧ IsObject (0x7B :: 0x22 :: b :: rest) ms := by
  constructor
  · intro h
    generalize hall : w ++ 0x7B :: 0x22 :: b :: rest = all at h
    cases h with
    | @intro w₀ w' text ms hw₀ h hw' =>
      have hclean : Clean b (text ++ 0x7D :: w') := by
        have hend : Clean b (0x7D :: w') := by
          have hlast := Clean.nil.append (b := b) hw'.ne_brace
          rw [List.append_nil] at hlast
          exact hlast.cons (by decide)
        refine h.clean hb hend ?_
        rw [List.head?_cons, Ne, Option.some.injEq]
        exact hb.2.2.2.symm
      have hsplit : w ++ 0x7B :: 0x22 :: b :: rest = w₀ ++ 0x7B :: (text ++ 0x7D :: w') := by
        rw [hall]
        simp
      rcases List.append_eq_append_iff.mp hsplit with ⟨u, hw₀eq, hu⟩ | ⟨u, hweq, hu⟩
      · cases u with
        | nil =>
          rw [List.append_nil] at hw₀eq
          rw [List.nil_append] at hu
          rw [hu]
          refine ⟨hw₀eq ▸ hw₀, ?_⟩
          have hobject := IsObject.intro (w := []) (fun x hx => by cases hx) h hw'
          simpa using hobject
        | cons x u =>
          -- The white space would hold the brace.
          rw [List.cons_append, List.cons.injEq] at hu
          have hmem : (0x7B : UInt8) ∈ w₀ := by
            rw [hw₀eq, hu.1]
            simp
          exact absurd rfl (hw₀.ne_brace _ hmem)
      · cases u with
        | nil =>
          rw [List.append_nil] at hweq
          rw [List.nil_append] at hu
          rw [← hu]
          refine ⟨hweq ▸ hw₀, ?_⟩
          have hobject := IsObject.intro (w := []) (fun x hx => by cases hx) h hw'
          simpa using hobject
        | cons x u =>
          rw [List.cons_append, List.cons.injEq] at hu
          exact absurd hu.2 (hclean u rest)
  · rintro ⟨hw, h⟩
    generalize hall : 0x7B :: 0x22 :: b :: rest = all at h
    cases h with
    | @intro w₀ w' text ms hw₀ h hw' =>
      have heq : w ++ (w₀ ++ 0x7B :: text ++ 0x7D :: w') = (w ++ w₀) ++ 0x7B :: text ++ 0x7D :: w' := by
        simp
      rw [heq]
      refine .intro (fun x hx => ?_) h hw'
      rcases List.mem_append.mp hx with hx | hx
      · exact hw x hx
      · exact hw₀ x hx

/-! ### Printing without escapes -/

/-- A member, its parts put between quotation marks as they are. -/
def printMember (m : List UInt8 × List UInt8) : List UInt8 :=
  0x22 :: m.1 ++ [0x22] ++ 0x3A :: (0x22 :: m.2 ++ [0x22])

def printMembers : List (List UInt8 × List UInt8) → List UInt8
  | [] => []
  | [m] => printMember m
  | m :: ms => printMember m ++ 0x2C :: printMembers ms

def print (ms : List (List UInt8 × List UInt8)) : List UInt8 := 0x7B :: printMembers ms ++ [0x7D]

/-- How many bytes the members take when they are printed. -/
theorem length_printMembers {ms : List (List UInt8 × List UInt8)} (h : ms ≠ []) :
    (printMembers ms).length + 1 = (ms.map memberSize).sum := by
  have hmember : ∀ m, (printMember m).length + 1 = memberSize m := by
    intro m
    simp only [printMember, memberSize, List.cons_append, List.length_append, List.length_cons,
      List.length_nil]
    omega
  fun_induction printMembers ms with
  | case1 => exact absurd rfl h
  | case2 m => simp [hmember]
  | case3 m ms hms ih =>
    have hne : ms ≠ [] := fun hnil => hms hnil
    have := ih hne
    have := hmember m
    simp only [List.length_append, List.length_cons, List.map_cons, List.sum_cons]
    omega

/-- A plain member is printed as it is. -/
theorem PlainMember.isMember {m : List UInt8 × List UInt8} (h : PlainMember m) :
    IsMember (printMember m) m := by
  have hnil : Whitespace [] := fun b hb => by cases hb
  have := IsMember.intro hnil (.intro h.1.stringBody) hnil hnil (.intro h.2.stringBody) hnil
  simpa [printMember] using this

/-- So are plain members, with commas between them. -/
theorem areMembers_printMembers {ms : List (List UInt8 × List UInt8)} (h : ms ≠ [])
    (hplain : ∀ m ∈ ms, PlainMember m) : AreMembers (printMembers ms) ms := by
  fun_induction printMembers ms with
  | case1 => exact absurd rfl h
  | case2 m => exact .one (hplain m List.mem_cons_self).isMember
  | case3 m ms hms ih =>
    exact .cons (hplain m List.mem_cons_self).isMember
      (ih (fun hnil => hms hnil) fun m' hm' => hplain m' (List.mem_cons_of_mem _ hm'))

/-- **Printing without escapes is right exactly for plain texts.** -/
theorem isObject_print_iff {ms : List (List UInt8 × List UInt8)} (h : ms ≠ []) :
    IsObject (print ms) ms ↔ ∀ m ∈ ms, PlainMember m := by
  constructor
  · intro hobject
    have hlength := length_printMembers h
    refine hobject.length_le.2 ?_
    simp only [print, List.cons_append, List.length_cons, List.length_append, List.length_nil]
    omega
  · intro hplain
    have hnil : Whitespace [] := fun b hb => by cases hb
    exact IsObject.intro hnil (areMembers_printMembers h hplain) hnil

end Json
