/-
Text as the string methods of Python see it, on lists of characters.

- `isSpace`, `digitValue`: what `str.isspace` and `str.isdecimal` say of one character;
- `strip`, `words`, `rfind`, `title`: `s.strip()`, `s.split()`, `s.rfind(c)`, `s.title()` of an ASCII text;
- `int`: `int(s)`;
- `splitlines`: `s.splitlines()`;
- `decodeUtf8Sig`: `bytes.decode("utf-8-sig")`.
-/
import Mathlib.Tactic
import Mathlib.Data.List.DropRight
import Mathlib.Data.List.TakeWhile

namespace Vault67.Text

/-- `c.isspace()` -/
def isSpace (c : Char) : Bool :=
  let n := c.toNat
  (0x09 ≤ n ∧ n ≤ 0x0D) ∨ (0x1C ≤ n ∧ n ≤ 0x20) ∨ n = 0x85 ∨ n = 0xA0 ∨ n = 0x1680 ∨ (0x2000 ≤ n ∧ n ≤ 0x200A) ∨
    n = 0x2028 ∨ n = 0x2029 ∨ n = 0x202F ∨ n = 0x205F ∨ n = 0x3000

/-- the zero of each row of ten decimal digits, in the order of their code points -/
def zeros : List ℕ :=
  [0x30, 0x660, 0x6F0, 0x7C0, 0x966, 0x9E6, 0xA66, 0xAE6, 0xB66, 0xBE6, 0xC66, 0xCE6, 0xD66, 0xDE6, 0xE50, 0xED0, 0xF20,
    0x1040, 0x1090, 0x17E0, 0x1810, 0x1946, 0x19D0, 0x1A80, 0x1A90, 0x1B50, 0x1BB0, 0x1C40, 0x1C50, 0xA620, 0xA8D0,
    0xA900, 0xA9D0, 0xA9F0, 0xAA50, 0xABF0, 0xFF10, 0x104A0, 0x10D30, 0x11066, 0x110F0, 0x11136, 0x111D0, 0x112F0,
    0x11450, 0x114D0, 0x11650, 0x116C0, 0x11730, 0x118E0, 0x11950, 0x11C50, 0x11D50, 0x11DA0, 0x11F50, 0x16A60, 0x16AC0,
    0x16B50, 0x1D7CE, 0x1D7D8, 0x1D7E2, 0x1D7EC, 0x1D7F6, 0x1E140, 0x1E2F0, 0x1E4F0, 0x1E950, 0x1FBF0]

/-- the value of a decimal digit -/
def digitValue (c : Char) : Option ℕ :=
  (zeros.find? fun z => z ≤ c.toNat ∧ c.toNat < z + 10).map (c.toNat - ·)

/-- `c.isdecimal()` -/
def isDigit (c : Char) : Bool := (digitValue c).isSome

/-- no digit is a space -/
theorem isSpace_of_digit {c : Char} (h : isDigit c = true) : isSpace c = false := by
  -- no row of digits meets a range of spaces
  have hrows : ∀ z ∈ zeros, 0x20 < z ∧ (z + 9 < 0x85 ∨ 0xA0 < z) ∧ (z + 9 < 0x1680 ∨ 0x1680 < z) ∧
      (z + 9 < 0x2000 ∨ 0x3000 < z) := by decide
  obtain ⟨n, hn⟩ := Option.isSome_iff_exists.1 h
  obtain ⟨z, hz, -⟩ := Option.map_eq_some_iff.1 hn
  have hmem := hrows z (List.mem_of_find?_eq_some hz)
  have hrange : z ≤ c.toNat ∧ c.toNat < z + 10 := by simpa using List.find?_some hz
  unfold isSpace
  simp only [decide_eq_false_iff_not]
  omega

/-- the number that a run of digits writes, most significant digit first -/
def number (cs : List Char) : ℕ := cs.foldl (fun n c => 10 * n + (digitValue c).getD 0) 0

/-- without the characters of a class at both ends -/
def stripOf (p : Char → Bool) (cs : List Char) : List Char := (cs.dropWhile p).rdropWhile p

/-- `s.strip()` -/
def strip (cs : List Char) : List Char := stripOf isSpace cs

theorem strip_sublist (cs : List Char) : (strip cs).Sublist cs :=
  (List.rdropWhile_prefix isSpace _).sublist.trans (List.dropWhile_sublist isSpace)

/-- a text of spaces -/
theorem strip_eq_nil_iff {cs : List Char} : strip cs = [] ↔ ∀ c ∈ cs, isSpace c = true := by
  rw [strip, stripOf, List.rdropWhile_eq_nil_iff]
  refine ⟨?_, ?_⟩
  · intro h
    apply List.dropWhile_eq_nil_iff.1
    by_contra hne
    have hhead := List.head_dropWhile_not isSpace hne
    rw [h _ (List.head_mem hne)] at hhead
    cases hhead
  · intro h c hc
    exact h c ((List.dropWhile_suffix isSpace).subset hc)

theorem strip_ne_nil_iff {cs : List Char} : strip cs ≠ [] ↔ ∃ c ∈ cs, isSpace c = false := by
  rw [Ne, strip_eq_nil_iff]
  simp

/-- what is no space stays -/
theorem mem_strip {c : Char} {cs : List Char} (hc : c ∈ cs) (hspace : isSpace c = false) : c ∈ strip cs := by
  have hkeep : ∀ {cs : List Char}, c ∈ cs → c ∈ cs.dropWhile isSpace := by
    intro cs hc
    rw [← List.takeWhile_append_dropWhile (p := isSpace) (l := cs)] at hc
    rcases List.mem_append.1 hc with hc | hc
    · rw [List.mem_takeWhile_imp hc] at hspace
      cases hspace
    · exact hc
  rw [strip, stripOf, List.rdropWhile, List.mem_reverse]
  exact hkeep (List.mem_reverse.2 (hkeep hc))

theorem strip_strip_ne_nil {cs : List Char} : strip (strip cs) ≠ [] ↔ strip cs ≠ [] := by
  refine ⟨?_, ?_⟩
  · intro h hnil
    rw [hnil] at h
    exact h rfl
  · intro h
    obtain ⟨c, hc, hspace⟩ := strip_ne_nil_iff.1 h
    exact strip_ne_nil_iff.2 ⟨c, mem_strip hc hspace, hspace⟩

/-- texts joined by spaces -/
theorem nonblank_intercalate {parts : List (List Char)} :
    strip ([' '].intercalate parts) ≠ [] ↔ ∃ part ∈ parts, strip part ≠ [] := by
  simp only [strip_ne_nil_iff]
  induction parts with
  | nil => simp
  | cons part parts ih =>
    cases parts with
    | nil => simp
    | cons next parts =>
      have hspace : isSpace ' ' = true := by decide
      rw [List.intercalate_cons_cons, List.exists_mem_cons_iff, ← ih]
      simp [or_and_right, exists_or, hspace]

/-- a character of joined texts is one of a text or the one between them -/
theorem mem_intercalate {c x : Char} {parts : List (List Char)} (h : c ∈ [x].intercalate parts) :
    c = x ∨ ∃ part ∈ parts, c ∈ part := by
  induction parts with
  | nil => simp at h
  | cons part parts ih =>
    cases parts with
    | nil => exact .inr ⟨part, List.mem_singleton.2 rfl, by simpa using h⟩
    | cons next parts =>
      rw [List.intercalate_cons_cons, List.append_assoc, List.mem_append, List.singleton_append, List.mem_cons] at h
      rcases h with hpart | hx | hrest
      · exact .inr ⟨part, List.mem_cons_self, hpart⟩
      · exact .inl hx
      · exact (ih hrest).imp_right fun ⟨p, hp, hc⟩ => ⟨p, List.mem_cons_of_mem _ hp, hc⟩

/-- `s.split()` -/
def words (cs : List Char) : List (List Char) := (cs.splitOnP isSpace).filter (· ≠ [])

/-- `s.rfind(c)` -/
def rfind (c : Char) (cs : List Char) : ℤ := (cs.length : ℤ) - 1 - cs.reverse.idxOf c

/-- `s.replace(c, d)` -/
def replace (c d : Char) (cs : List Char) : List Char := cs.map fun x => if x = c then d else x

/-- `s.replace(c, "")` -/
def remove (c : Char) (cs : List Char) : List Char := cs.filter (· ≠ c)

/-- nothing to remove -/
theorem remove_eq_self {c : Char} {cs : List Char} (h : c ∉ cs) : remove c cs = cs := by
  apply List.filter_eq_self.2
  intro d hd
  have hne : d ≠ c := fun heq => h (heq ▸ hd)
  simpa using hne

/-- upper case at the start of a word, lower case after a letter -/
def titleFrom (inWord : Bool) : List Char → List Char
  | [] => []
  | c :: cs => (if inWord then c.toLower else c.toUpper) :: titleFrom c.isAlpha cs

/-- `s.title()` of an ASCII text -/
def title (s : String) : String := String.ofList (titleFrom false s.toList)

/-! ## Integers -/

/-- an optional sign, whether it is a minus, and the rest -/
def sign : List Char → Bool × List Char
  | '-' :: cs => (true, cs)
  | '+' :: cs => (false, cs)
  | cs => (false, cs)

/-- what `int` skips at both ends: blanks, but none of the four separators of ASCII -/
def isIntSpace (c : Char) : Bool := isSpace c && !(0x1C ≤ c.toNat ∧ c.toNat ≤ 0x1F)

/-- `int(text)`, none when it raises: digits with single underscores between them, 4300 at most -/
def int (cs : List Char) : Option ℤ :=
  let (negative, digits) := sign (stripOf isIntSpace cs)
  let parts := digits.splitOn '_'
  if (∀ part ∈ parts, part ≠ [] ∧ part.all isDigit) ∧ parts.flatten.length ≤ 4300 then
    some ((if negative then -1 else 1) * number parts.flatten)
  else none

/-! ## Lines -/

/-- a character that ends a line -/
def isBreak (c : Char) : Bool :=
  c.toNat ∈ [0x0A, 0x0B, 0x0C, 0x0D, 0x1C, 0x1D, 0x1E, 0x85, 0x2028, 0x2029]

/-- the lines of a text, the first of them begun with the given characters, last one first -/
def linesFrom (line : List Char) : List Char → List (List Char)
  | [] => if line = [] then [] else [line.reverse]
  | '\r' :: '\n' :: cs => line.reverse :: linesFrom [] cs
  | c :: cs => if isBreak c then line.reverse :: linesFrom [] cs else linesFrom (c :: line) cs

/-- `s.splitlines()` -/
def splitlines (cs : List Char) : List (List Char) := linesFrom [] cs

theorem linesFrom_of_isBreak {cs : List Char} (h : ∀ c ∈ cs, isBreak c = false) (line : List Char) :
    linesFrom line cs = if line = [] ∧ cs = [] then [] else [line.reverse ++ cs] := by
  induction cs generalizing line with
  | nil => simp [linesFrom]
  | cons c cs ih =>
    obtain ⟨hc, hcs⟩ := List.forall_mem_cons.1 h
    rw [linesFrom]
    · rw [hc, if_neg Bool.false_ne_true, ih hcs, if_neg (by simp), if_neg (by simp)]
      simp
    · rintro rest rfl
      cases hc

/-- a text without line ends is one line -/
theorem splitlines_of_isBreak {cs : List Char} (hne : cs ≠ []) (h : ∀ c ∈ cs, isBreak c = false) : splitlines cs = [cs] := by
  rw [splitlines, linesFrom_of_isBreak h, if_neg (fun hnil => hne hnil.2)]
  rfl

theorem linesFrom_isBreak (line cs : List Char) (h : ∀ c ∈ line, isBreak c = false) :
    ∀ l ∈ linesFrom line cs, ∀ c ∈ l, isBreak c = false := by
  have hreverse : ∀ {line : List Char}, (∀ c ∈ line, isBreak c = false) → ∀ c ∈ line.reverse, isBreak c = false :=
    fun h c hc => h c (List.mem_reverse.1 hc)
  induction line, cs using linesFrom.induct with
  | case1 => simp [linesFrom]
  | case2 line hne =>
    rw [linesFrom, if_neg hne]
    exact List.forall_mem_singleton.2 (hreverse h)
  | case3 line cs ih =>
    rw [linesFrom]
    exact List.forall_mem_cons.2 ⟨hreverse h, ih (by simp)⟩
  | case4 line c cs hcrlf hbreak ih =>
    rw [linesFrom, if_pos hbreak]
    · exact List.forall_mem_cons.2 ⟨hreverse h, ih (by simp)⟩
    · exact hcrlf
  | case5 line c cs hcrlf hbreak ih =>
    rw [linesFrom, if_neg hbreak]
    · exact ih (List.forall_mem_cons.2 ⟨Bool.eq_false_iff.2 hbreak, h⟩)
    · exact hcrlf

/-- no line has a line break -/
theorem splitlines_isBreak {cs line : List Char} (h : line ∈ splitlines cs) : ∀ c ∈ line, isBreak c = false :=
  linesFrom_isBreak [] cs (by simp) line h

example : splitlines "ab\r\n\nc".toList = ["ab".toList, [], "c".toList] := by decide +kernel

/-! ## Bytes -/

/-- the bytes that mark a text as UTF-8 -/
def bom : List UInt8 := [0xEF, 0xBB, 0xBF]

/-- `bytes.decode("utf-8-sig")`, none when it raises -/
def decodeUtf8Sig (bytes : ByteArray) : Option (List Char) :=
  let rest := if (bytes.extract 0 3).data.toList = bom then bytes.extract 3 bytes.size else bytes
  rest.utf8Decode?.map Array.toList

/-- a text that begins with an ASCII character has no mark -/
theorem decodeUtf8Sig_utf8Encode {c : Char} (h : c.utf8Size = 1) (cs : List Char) :
    decodeUtf8Sig (c :: cs).utf8Encode = some (c :: cs) := by
  have hbytes : (c :: cs).utf8Encode.data.toList = c.val.toUInt8 :: cs.utf8Encode.data.toList := by
    rw [List.utf8Encode_cons, List.utf8Encode_singleton, String.utf8EncodeChar_eq_singleton h, ByteArray.data_append,
      Array.toList_append, List.toList_data_toByteArray, List.singleton_append]
  have hfirst : c.val.toUInt8 ≠ 0xEF := by
    have hle := UInt32.le_iff_toNat_le.1 (Char.utf8Size_eq_one_iff.1 h)
    intro heq
    have hmod := congrArg UInt8.toNat heq
    rw [UInt32.toNat_toUInt8] at hmod
    simp at hle hmod
    omega
  have hbom : ((c :: cs).utf8Encode.extract 0 3).data.toList ≠ bom := by
    rw [ByteArray.data_extract, Array.toList_extract, hbytes]
    exact fun heq => hfirst (List.head_eq_of_cons_eq heq)
  rw [decodeUtf8Sig]
  rw [if_neg hbom, List.utf8Decode?_utf8Encode]
  rfl

end Vault67.Text
