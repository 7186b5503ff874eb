import Provisioning.Json.Reader
import Provisioning.Json.Value
import Provisioning.FileTree.Basic
import Mathlib.Tactic.SplitIfs
import Mathlib.Data.List.Forall2
import Mathlib.Data.Nat.Digits.Lemmas
/-!
Reading back what the printer writes.

The pretty printer and the reader agree: the text `pretty` writes for a value, read against a
shape that fits the value, gives back the written strings and flags, in order. The reader works
on UTF-8 bytes with a cursor, so the statements are about bytes (`bytesOf`) and about what is
left after reading.

* Bytes: the UTF-8 bytes of a text are the encodings of its characters, and of an appended text
  the bytes of the two parts.
* String literals: every character, as `escapeChar` writes it, reads back as its own UTF-8
  bytes, so a literal written by `quote` reads back as its string (`parseStr_quote`).
* Values: `ReadsAs shape bytes d extra` says that `bytes` start a value and read as `d`,
  stopping right after them, with any fuel above their length and `extra`. Flags, strings,
  null and optional values (`ReadsAs.maybe`), names of a choice, arrays (`readsAs_list`) and
  objects (`readsAs_record`) are read back one level at a time, and a whole document is read
  back by `readDocument_pretty`.
* Numbers: digits go on as long as digits follow, so a number reads back only before a byte
  that cannot start a value (`ReadsAsDelimited`), as it always stands in a document: a count
  that fits in 64 bits reads back as itself (`readsAs_nat`). Object members are read back in
  this weaker sense, so a member may hold a number (`readsAs_record_delimited`).
-/

namespace Provisioning

/-! ## Bytes -/

theorem ByteArray.toList_loop (b : ByteArray) (i : Nat) (r : List UInt8) :
    ByteArray.toList.loop b i r = r.reverse ++ b.data.toList.drop i := by
  fun_induction ByteArray.toList.loop b i r with
  | case1 i r h ih =>
    have hi : i < b.data.toList.length := by simpa using h
    have hget : b.get! i = b.data.toList[i] := by
      simp [ByteArray.get!, getElem!_pos b.data i (by simpa using h)]
    rw [ih, List.drop_eq_getElem_cons hi (i := i), hget]
    simp
  | case2 i r h =>
    have : b.data.toList.length ≤ i := by simpa using h
    simp [List.drop_eq_nil_of_le this]

/-- A byte array as a list is its bytes in order. -/
theorem ByteArray.toList_eq (b : ByteArray) : b.toList = b.data.toList := by
  unfold ByteArray.toList
  simpa using ByteArray.toList_loop b 0 []

/-- The UTF-8 bytes of a text are the encodings of its characters. -/
theorem bytesOf_eq (s : String) : bytesOf s = s.toList.flatMap String.utf8EncodeChar := by
  rw [bytesOf, String.toUTF8_eq_toByteArray, ByteArray.toList_eq, ← String.utf8Encode_toList]
  simp [List.utf8Encode]

@[simp] theorem bytesOf_append (s t : String) : bytesOf (s ++ t) = bytesOf s ++ bytesOf t := by
  simp [bytesOf_eq]

namespace Json

open Cursor

theorem Cursor.bump_rest {c : Cursor} {b : UInt8} {r : List UInt8} (h : c.rest = b :: r) :
    c.bump.rest = r := by
  simp only [Cursor.bump, h]
  split <;> rfl

theorem Cursor.peek_eq {c : Cursor} {b : UInt8} {r : List UInt8} (h : c.rest = b :: r) :
    c.peek = some b := by
  simp [Cursor.peek, h]

theorem Cursor.skipBlanks_go_rest (bs : List UInt8) (l k : Nat) :
    (Cursor.skipBlanks.go bs l k).rest = bs.dropWhile isSpace := by
  induction bs generalizing l k with
  | nil => rfl
  | cons b bs ih =>
    simp only [Cursor.skipBlanks.go]
    by_cases h10 : b = 10
    · simp [h10, ih, isSpace]
    · by_cases hs : (b = 32 || b = 9 || b = 13) = true
      · have : isSpace b = true := by simp_all [isSpace]
        simp [h10, hs, ih, this]
      · have : isSpace b = false := by simp_all [isSpace]
        simp [h10, hs, this]

/-- Skipping blanks drops the blanks at the head of what is left. -/
theorem Cursor.skipBlanks_rest (c : Cursor) : c.skipBlanks.rest = c.rest.dropWhile isSpace :=
  Cursor.skipBlanks_go_rest _ _ _

/-- A cursor at a byte that is no blank stays where it is. -/
theorem Cursor.skipBlanks_of_head {c : Cursor} {b : UInt8} {r : List UInt8} (h : c.rest = b :: r)
    (hb : isSpace b = false) : c.skipBlanks = c := by
  obtain ⟨rest, line, column⟩ := c
  subst h
  simp only [isSpace, Bool.or_eq_false_iff, decide_eq_false_iff_not] at hb
  simp [Cursor.skipBlanks, Cursor.skipBlanks.go, hb]

/-- Skipping blanks twice is skipping them once. -/
theorem Cursor.skipBlanks_skipBlanks (c : Cursor) : c.skipBlanks.skipBlanks = c.skipBlanks := by
  have hrest := Cursor.skipBlanks_rest c
  generalize c.skipBlanks = d at hrest ⊢
  obtain ⟨rest, line, column⟩ := d
  simp only at hrest
  cases rest with
  | nil => rfl
  | cons b r =>
    have hb : isSpace b = false := by
      have := List.head_dropWhile_not isSpace (l := c.rest) (by simp [← hrest])
      simpa [← hrest] using this
    exact Cursor.skipBlanks_of_head rfl hb


/-! ## String literals -/

/-- A byte that stands for itself inside a string literal. -/
def Plain (b : UInt8) : Prop := b ≠ 34 ∧ b ≠ 92 ∧ 32 ≤ b

/-- Bytes that stand for themselves are taken over one by one. -/
theorem parseStr_plain (bs : List UInt8) (hbs : ∀ b ∈ bs, Plain b) :
    ∀ (c : Cursor) (acc more : List UInt8), c.rest = bs ++ more →
      ∃ c', c'.rest = more ∧
        ∀ fuel, parseStr (fuel + bs.length) c acc = parseStr fuel c' (bs.reverse ++ acc) := by
  induction bs with
  | nil => exact fun c acc more h => ⟨c, h, fun _ => rfl⟩
  | cons b bs ih =>
    intro c acc more h
    obtain ⟨h34, h92, h32⟩ := hbs b List.mem_cons_self
    obtain ⟨c', hc', heq⟩ := ih (fun x hx => hbs x (List.mem_cons_of_mem b hx)) c.bump (b :: acc) more
      (Cursor.bump_rest h)
    refine ⟨c', hc', fun fuel => ?_⟩
    have hlt : ¬ b < 32 := by
      intro hb
      exact absurd (UInt8.le_iff_toNat_le.mp h32) (by have := UInt8.lt_iff_toNat_lt.mp hb; omega)
    rw [show fuel + (b :: bs).length = (fuel + bs.length) + 1 by simp; omega, parseStr,
      Cursor.peek_eq h]
    simp only [h34, h92, hlt, if_false]
    simpa using heq fuel

theorem utf8EncodeChar_high (ch : Char) (h : 0x80 ≤ ch.toNat) :
    ∀ b ∈ String.utf8EncodeChar ch, 128 ≤ b.toNat := by
  have hv : ch.val.toNat = ch.toNat := rfl
  simp only [String.utf8EncodeChar]
  split
  · omega
  · split
    · simp
      omega
    · split
      · simp; omega
      · simp; omega

/-- A character that needs no escape is written as bytes that stand for themselves. -/
theorem plain_utf8EncodeChar (ch : Char) (h34 : ch ≠ '"') (h92 : ch ≠ '\\') (h32 : 0x20 ≤ ch.toNat) :
    ∀ b ∈ String.utf8EncodeChar ch, Plain b := by
  by_cases hlow : ch.toNat < 0x80
  · have hsize : ch.utf8Size = 1 := Char.utf8Size_eq_one_iff.mpr (by
      simp [UInt32.le_iff_toNat_le]; exact Nat.le_of_lt_succ hlow)
    rw [String.utf8EncodeChar_eq_singleton hsize]
    intro b hb
    simp only [List.mem_singleton] at hb
    subst hb
    have hb : ch.val.toUInt8.toNat = ch.toNat := by
      rw [UInt32.toNat_toUInt8]; change ch.toNat % 2 ^ 8 = ch.toNat; omega
    have h34' : ch.toNat ≠ 34 := fun h => h34 (Char.ext (UInt32.toNat_inj.mp h))
    have h92' : ch.toNat ≠ 92 := fun h => h92 (Char.ext (UInt32.toNat_inj.mp h))
    refine ⟨fun h => h34' ?_, fun h => h92' ?_, UInt8.le_iff_toNat_le.mpr ?_⟩
    · rw [← hb, h]; rfl
    · rw [← hb, h]; rfl
    · rw [hb]; simpa using h32
  · intro b hb
    have := utf8EncodeChar_high ch (by omega) b hb
    refine ⟨?_, ?_, ?_⟩
    · intro h; subst h; simp at this
    · intro h; subst h; simp at this
    · exact UInt8.le_iff_toNat_le.mpr (by simp; omega)

/-- A backslash hands the rest of the escape to `escape`. -/
theorem parseStr_backslash {c c' : Cursor} {more bytes : List UInt8} (h : c.rest = 92 :: more)
    (he : escape c.bump = .ok (bytes, c')) (fuel : Nat) (acc : List UInt8) :
    parseStr (fuel + 1) c acc = parseStr fuel c' (bytes.reverse ++ acc) := by
  rw [parseStr, Cursor.peek_eq h]
  simp [he]

/-- The two hexadecimal digits written for a control character read back as its code. -/
theorem hexByte_control : ∀ n < 32,
    ((hexByte n).toList.flatMap String.utf8EncodeChar).map hexValue = [some (n / 16), some (n % 16)] := by
  decide

/-- `\u00` and two hexadecimal digits stand for the code they spell. -/
theorem escape_control {c : Cursor} {a b : UInt8} {x y : Nat} {more : List UInt8}
    (h : c.rest = 117 :: 48 :: 48 :: a :: b :: more) (ha : hexValue a = some x)
    (hb : hexValue b = some y) (hxy : x * 16 + y < 0x80) :
    ∃ c', escape c = .ok (utf8Bytes (x * 16 + y), c') ∧ c'.rest = more := by
  have h1 := Cursor.bump_rest h
  have h2 := Cursor.bump_rest h1
  have h3 := Cursor.bump_rest h2
  have h4 := Cursor.bump_rest h3
  have h5 := Cursor.bump_rest h4
  refine ⟨c.bump.bump.bump.bump.bump, ?_, h5⟩
  have h48 : hexValue 48 = some 0 := by decide
  have hhex : hexEscape c.bump = .ok (x * 16 + y, c.bump.bump.bump.bump.bump) := by
    simp [hexEscape, h1, ha, hb, h48]
  have hlo : ¬ (0xDC00 ≤ x * 16 + y) := by omega
  have hhi : x * 16 + y < 0xD800 := by omega
  simp [escape, Cursor.peek_eq h, unicodeEscape, hhex, bind, Except.bind, hlo, hhi, pure, Except.pure]

/-- A two-byte escape stands for one byte and is read in one step. -/
theorem parseStr_twoByte {s : String} {e x : UInt8} (hs : bytesOf s = [92, e])
    (he : ∀ c0 : Cursor, ∀ more, c0.rest = e :: more → escape c0 = .ok ([x], c0.bump))
    (c : Cursor) (acc more : List UInt8) (h : c.rest = bytesOf s ++ more) :
    ∃ k c', 0 < k ∧ k ≤ (bytesOf s).length ∧ c'.rest = more ∧
      ∀ fuel, parseStr (fuel + k) c acc = parseStr fuel c' ([x].reverse ++ acc) := by
  rw [hs] at h ⊢
  have h1 : c.bump.rest = e :: more := Cursor.bump_rest h
  refine ⟨1, c.bump.bump, by omega, by simp, Cursor.bump_rest h1, fun fuel => ?_⟩
  exact parseStr_backslash h (he c.bump more h1) fuel acc

/-- One written character reads back as its UTF-8 bytes, in as many steps as it has bytes at
most. -/
theorem parseStr_escapeChar (ch : Char) (c : Cursor) (acc more : List UInt8)
    (h : c.rest = bytesOf (escapeChar ch) ++ more) :
    ∃ k c', 0 < k ∧ k ≤ (bytesOf (escapeChar ch)).length ∧ c'.rest = more ∧
      ∀ fuel, parseStr (fuel + k) c acc = parseStr fuel c' ((String.utf8EncodeChar ch).reverse ++ acc) := by
  unfold escapeChar at h ⊢
  split_ifs at h ⊢ with h1 h2 h3 h4 h5 h6 h7 h8
  · subst h1
    exact parseStr_twoByte (e := 34) (x := 34) (by simp [bytesOf_eq]; decide)
      (fun c0 more h0 => by simp [escape, Cursor.peek_eq h0]) c acc more h
  · subst h2
    exact parseStr_twoByte (e := 92) (x := 92) (by simp [bytesOf_eq]; decide)
      (fun c0 more h0 => by simp [escape, Cursor.peek_eq h0]) c acc more h
  · subst h3
    exact parseStr_twoByte (e := 110) (x := 10) (by simp [bytesOf_eq]; decide)
      (fun c0 more h0 => by simp [escape, Cursor.peek_eq h0]) c acc more h
  · subst h4
    exact parseStr_twoByte (e := 114) (x := 13) (by simp [bytesOf_eq]; decide)
      (fun c0 more h0 => by simp [escape, Cursor.peek_eq h0]) c acc more h
  · subst h5
    exact parseStr_twoByte (e := 116) (x := 9) (by simp [bytesOf_eq]; decide)
      (fun c0 more h0 => by simp [escape, Cursor.peek_eq h0]) c acc more h
  · subst h6
    exact parseStr_twoByte (e := 98) (x := 8) (by simp [bytesOf_eq]; decide)
      (fun c0 more h0 => by simp [escape, Cursor.peek_eq h0]) c acc more h
  · subst h7
    exact parseStr_twoByte (e := 102) (x := 12) (by simp [bytesOf_eq]; decide)
      (fun c0 more h0 => by simp [escape, Cursor.peek_eq h0]) c acc more h
  · -- a control character: `\u00` and its code in two hexadecimal digits
    obtain ⟨a, b, hab, ha, hb⟩ : ∃ a b, bytesOf (hexByte ch.toNat) = [a, b] ∧
        hexValue a = some (ch.toNat / 16) ∧ hexValue b = some (ch.toNat % 16) := by
      have hdigits := hexByte_control ch.toNat h8
      rw [bytesOf_eq]
      generalize (hexByte ch.toNat).toList.flatMap String.utf8EncodeChar = l at hdigits
      match l, hdigits with
      | [a, b], hd => exact ⟨a, b, rfl, by simpa using hd⟩
      | [], hd => simp at hd
      | [_], hd => simp at hd
      | _ :: _ :: _ :: _, hd => simp at hd
    have hbytes : bytesOf ("\\u00" ++ hexByte ch.toNat) = [92, 117, 48, 48, a, b] := by
      have hpre : bytesOf "\\u00" = [92, 117, 48, 48] := by simp [bytesOf_eq]; decide
      rw [bytesOf_append, hpre, hab]
      rfl
    rw [hbytes] at h ⊢
    have h1 : c.bump.rest = [117, 48, 48, a, b] ++ more := Cursor.bump_rest h
    obtain ⟨c', he, hc'⟩ := escape_control h1 ha hb (by omega)
    refine ⟨1, c', by omega, by simp, hc', fun fuel => ?_⟩
    rw [parseStr_backslash h he, show ch.toNat / 16 * 16 + ch.toNat % 16 = ch.toNat by omega]
    have hsize : ch.utf8Size = 1 := Char.utf8Size_eq_one_iff.mpr (by
      simp [UInt32.le_iff_toNat_le]; omega)
    have hone : utf8Bytes ch.toNat = String.utf8EncodeChar ch := by
      rw [String.utf8EncodeChar_eq_singleton hsize, utf8Bytes, if_pos (by omega)]
      congr 1
    rw [hone]
  · -- any other character stands for itself
    have hbytes : bytesOf ch.toString = String.utf8EncodeChar ch := by
      simp [bytesOf_eq]
    rw [hbytes] at h ⊢
    have hplain := plain_utf8EncodeChar ch h1 h2 (by omega)
    obtain ⟨c', hc', heq⟩ := parseStr_plain _ hplain c acc more h
    exact ⟨_, c', by simpa using Char.utf8Size_pos ch, Nat.le_refl _, hc', heq⟩

/-- The bytes of a text's characters, decoded, give the text back. -/
theorem textOfBytes_chars (s : String) : textOfBytes (s.toList.flatMap String.utf8EncodeChar) = s := by
  have hbytes : (⟨(s.toList.flatMap String.utf8EncodeChar).toArray⟩ : ByteArray) = s.toByteArray := by
    rw [← String.utf8Encode_toList, List.utf8Encode]
    ext1
    rw [List.data_toByteArray]
  rw [textOfBytes, hbytes, String.fromUTF8?, dif_pos s.isValidUTF8]
  rfl

/-- The characters of a string literal, each as the printer writes it, read back as their UTF-8
bytes, up to the closing quote. -/
theorem parseStr_chars (cs : List Char) : ∀ (fuel : Nat) (c : Cursor) (acc more : List UInt8),
    c.rest = cs.flatMap (fun ch => bytesOf (escapeChar ch)) ++ 34 :: more →
    (cs.flatMap (fun ch => bytesOf (escapeChar ch))).length < fuel →
    ∃ c', parseStr fuel c acc =
      .ok (textOfBytes (acc.reverse ++ cs.flatMap String.utf8EncodeChar), c') ∧ c'.rest = more := by
  induction cs with
  | nil =>
    intro fuel c acc more h hfuel
    obtain ⟨f, rfl⟩ : ∃ f, fuel = f + 1 := ⟨fuel - 1, by simp at hfuel; omega⟩
    refine ⟨c.bump, ?_, Cursor.bump_rest h⟩
    rw [parseStr, Cursor.peek_eq h]
    simp
  | cons ch cs ih =>
    intro fuel c acc more h hfuel
    rw [List.flatMap_cons, List.append_assoc] at h
    rw [List.flatMap_cons, List.length_append] at hfuel
    obtain ⟨k, c', hk, hkle, hc', heq⟩ := parseStr_escapeChar ch c acc _ h
    obtain ⟨c'', hread, hc''⟩ := ih (fuel - k) c' _ more hc' (by omega)
    refine ⟨c'', ?_, hc''⟩
    rw [show fuel = (fuel - k) + k by omega, heq, hread]
    simp


/-- The bytes of a string literal: the quotes around each character as the printer writes it. -/
theorem quote_bytes (s : String) :
    bytesOf (quote s) = 34 :: (s.toList.flatMap (fun ch => bytesOf (escapeChar ch)) ++ [34]) := by
  have hq : String.utf8EncodeChar '"' = [34] := rfl
  simp [quote, bytesOf_eq, String.toList_join, List.flatMap_map, List.flatMap_assoc, hq]

/-- A string literal as the printer writes it reads back as the string. -/
theorem parseStr_quote (s : String) (fuel : Nat) {c : Cursor} {more : List UInt8}
    (h : c.rest = bytesOf (quote s) ++ more) (hfuel : (bytesOf (quote s)).length ≤ fuel) :
    ∃ c', parseStr fuel c.bump [] = .ok (s, c') ∧ c'.rest = more := by
  rw [quote_bytes, List.cons_append, List.append_assoc, List.singleton_append] at h
  rw [quote_bytes] at hfuel
  have h1 := Cursor.bump_rest h
  obtain ⟨c', hread, hc'⟩ := parseStr_chars s.toList fuel c.bump [] more h1 (by simp at hfuel ⊢; omega)
  exact ⟨c', by simpa [textOfBytes_chars] using hread, hc'⟩


/-! ## Values -/

-- A term-mode proof is checked before the proofs after it start, so the equations of
-- `readValue` are made here once, and not by the proofs below that unfold it side by side.
/-- With no fuel left, reading fails. -/
theorem readValue_zero (shape : Shape) (c : Cursor) :
    readValue 0 shape c = .error (c.here outOfFuel) :=
  readValue.eq_1 shape c

/-- A byte that may start the written form of a value: no blank, and none of the bytes that
close or separate values. -/
def StartsValue (b : UInt8) : Prop := isSpace b = false ∧ b ≠ 44 ∧ b ≠ 93 ∧ b ≠ 125

instance (b : UInt8) : Decidable (StartsValue b) := inferInstanceAs (Decidable (_ ∧ _))

/-- `bytes` read as `d` against `shape`: they start a value, and with more fuel than their length
and `extra`, reading them gives `d` and stops right after them, whatever follows. -/
structure ReadsAs (shape : Shape) (bytes : List UInt8) (d : Datum) (extra : Nat) : Prop where
  head : ∃ b r, bytes = b :: r ∧ StartsValue b
  read : ∀ fuel c more, bytes.length + extra < fuel → c.rest = bytes ++ more →
    ∃ c', readValue fuel shape c = .ok (d, c') ∧ c'.rest = more

theorem ReadsAs.mono {shape : Shape} {bytes : List UInt8} {d : Datum} {e e' : Nat}
    (h : ReadsAs shape bytes d e) (he : e ≤ e') : ReadsAs shape bytes d e' :=
  ⟨h.head, fun fuel c more hf hc => h.read fuel c more (by omega) hc⟩

/-- A literal is matched byte by byte. -/
theorem parseIdent_eq (lit : List UInt8) : ∀ (c : Cursor) (more : List UInt8), c.rest = lit ++ more →
    ∃ c', parseIdent c lit = .ok c' ∧ c'.rest = more := by
  induction lit with
  | nil => exact fun c more h => ⟨c, rfl, h⟩
  | cons b lit ih =>
    intro c more h
    obtain ⟨c', hc', hrest⟩ := ih c.bump more (Cursor.bump_rest h)
    refine ⟨c', ?_, hrest⟩
    rw [parseIdent, h]
    simpa using hc'

theorem readsAs_true : ReadsAs .flag (bytesOf (compact (.bool true))) (.flag true) 0 := by
  have hbytes : bytesOf (compact (.bool true)) = [116, 114, 117, 101] := by
    simp [compact, bytesOf_eq]; decide
  rw [hbytes]
  refine ⟨⟨116, _, rfl, by decide⟩, fun fuel c more hf h => ?_⟩
  obtain ⟨f, rfl⟩ : ∃ f, fuel = f + 1 := ⟨fuel - 1, by simp at hf; omega⟩
  obtain ⟨c', hc', hrest⟩ := parseIdent_eq [114, 117, 101] c.bump more (Cursor.bump_rest h)
  refine ⟨c', ?_, hrest⟩
  rw [readValue, Cursor.skipBlanks_of_head h (by decide)]
  simp [Cursor.peek_eq h, hc']

theorem readsAs_false : ReadsAs .flag (bytesOf (compact (.bool false))) (.flag false) 0 := by
  have hbytes : bytesOf (compact (.bool false)) = [102, 97, 108, 115, 101] := by
    simp [compact, bytesOf_eq]; decide
  rw [hbytes]
  refine ⟨⟨102, _, rfl, by decide⟩, fun fuel c more hf h => ?_⟩
  obtain ⟨f, rfl⟩ : ∃ f, fuel = f + 1 := ⟨fuel - 1, by simp at hf; omega⟩
  obtain ⟨c', hc', hrest⟩ := parseIdent_eq [97, 108, 115, 101] c.bump more (Cursor.bump_rest h)
  refine ⟨c', ?_, hrest⟩
  rw [readValue, Cursor.skipBlanks_of_head h (by decide)]
  simp [Cursor.peek_eq h, hc']

/-- A flag is written as the literal `true` or `false`. -/
theorem readsAs_flag (b : Bool) : ReadsAs .flag (bytesOf (compact (.bool b))) (.flag b) 0 := by
  cases b
  · exact readsAs_false
  · exact readsAs_true

/-- A string literal reads back as its string. -/
theorem readsAs_text (what s : String) : ReadsAs (.text what) (bytesOf (quote s)) (.text s) 0 := by
  refine ⟨⟨34, _, by rw [quote_bytes], by decide⟩, fun fuel c more hf h => ?_⟩
  obtain ⟨f, rfl⟩ : ∃ f, fuel = f + 1 := ⟨fuel - 1, by omega⟩
  have h' : c.rest = 34 :: ((s.toList.flatMap fun ch => bytesOf (escapeChar ch)) ++ [34] ++ more) := by
    rw [h, quote_bytes]; simp
  obtain ⟨c', hc', hrest⟩ := parseStr_quote s f h (by omega)
  refine ⟨c', ?_, hrest⟩
  rw [readValue, Cursor.skipBlanks_of_head h' (by decide)]
  simp [Cursor.peek_eq h', hc']

/-- A value that is not written as `null` reads as present where the shape allows null. -/
theorem ReadsAs.maybe {shape : Shape} {bytes : List UInt8} {d : Datum} {e : Nat}
    (h : ReadsAs shape bytes d e) (hnull : bytes.head? ≠ some 110) :
    ReadsAs (.maybe shape) bytes (.some d) (e + 1) := by
  refine ⟨h.head, fun fuel c more hf hc => ?_⟩
  obtain ⟨b, r, hbytes, hb⟩ := h.head
  obtain ⟨f, rfl⟩ : ∃ f, fuel = f + 1 := ⟨fuel - 1, by omega⟩
  obtain ⟨c', hc', hrest⟩ := h.read f c more (by omega) hc
  refine ⟨c', ?_, hrest⟩
  have hc2 : c.rest = b :: (r ++ more) := by rw [hc, hbytes]; rfl
  have hb110 : b ≠ 110 := fun h110 => hnull (by simp [hbytes, h110])
  rw [readValue, Cursor.skipBlanks_of_head hc2 hb.1, Cursor.peek_eq hc2]
  simp [hb110, hc']

/-- `null` reads as absent where the shape allows null. -/
theorem readsAs_null (inner : Shape) (L : Nat) :
    ReadsAs (.maybe inner) (bytesOf (prettyAt L .null)) .none 0 := by
  have hbytes : bytesOf (prettyAt L .null) = [110, 117, 108, 108] := by
    simp [prettyAt, compact, bytesOf_eq]; decide
  rw [hbytes]
  refine ⟨⟨110, _, rfl, by decide⟩, fun fuel c more hf h => ?_⟩
  obtain ⟨f, rfl⟩ : ∃ f, fuel = f + 1 := ⟨fuel - 1, by omega⟩
  obtain ⟨c', hc', hrest⟩ := parseIdent_eq [117, 108, 108] c.bump more (Cursor.bump_rest h)
  refine ⟨c', ?_, hrest⟩
  rw [readValue, Cursor.skipBlanks_of_head h (by decide)]
  simp [Cursor.peek_eq h, hc']

/-- A string literal naming one of the options reads back as that option. -/
theorem readsAs_choice (name : String) {options : List String} {s : String} (hs : s ∈ options)
    (L : Nat) : ReadsAs (.choice name options) (bytesOf (prettyAt L (.str s))) (.choice s) 0 := by
  have hbytes : bytesOf (prettyAt L (.str s)) = bytesOf (quote s) := by simp [prettyAt, compact]
  rw [hbytes]
  refine ⟨⟨34, _, by rw [quote_bytes], by decide⟩, fun fuel c more hf h => ?_⟩
  obtain ⟨f, rfl⟩ : ∃ f, fuel = f + 1 := ⟨fuel - 1, by omega⟩
  have h' : c.rest = 34 :: ((s.toList.flatMap fun ch => bytesOf (escapeChar ch)) ++ [34] ++ more) := by
    rw [h, quote_bytes]; simp
  obtain ⟨c', hc', hrest⟩ := parseStr_quote s f h (by omega)
  refine ⟨c', ?_, hrest⟩
  rw [readValue, Cursor.skipBlanks_of_head h' (by decide)]
  simp [Cursor.peek_eq h', hc', hs]

/-- Reading a value starts by skipping blanks, so blanks before it change nothing. -/
theorem readValue_skipBlanks (fuel : Nat) (shape : Shape) (c : Cursor) :
    readValue (fuel + 1) shape c.skipBlanks = readValue (fuel + 1) shape c := by
  simp only [readValue, Cursor.skipBlanks_skipBlanks]

/-! ## Arrays -/

/-- Indentation is spaces, two per level. -/
theorem indent_bytes (n : Nat) : bytesOf (indent n) = List.replicate (2 * n) 32 := by
  have hspace : String.utf8EncodeChar ' ' = [32] := rfl
  simp [indent, bytesOf_eq, List.flatMap_replicate, hspace]

theorem indent_blank {n : Nat} : ∀ x ∈ bytesOf (indent n), isSpace x = true := by
  simp only [indent_bytes, List.mem_replicate]
  rintro x ⟨-, rfl⟩
  rfl

theorem Cursor.skipBlanks_blanks {c : Cursor} {bl r : List UInt8} {b : UInt8}
    (h : c.rest = bl ++ b :: r) (hbl : ∀ x ∈ bl, isSpace x = true) (hb : isSpace b = false) :
    c.skipBlanks.rest = b :: r := by
  rw [Cursor.skipBlanks_rest, h, List.dropWhile_append_of_pos hbl,
    List.dropWhile_cons_of_neg (by simp [hb])]

/-- The first element of an array is found after the blanks that follow the bracket. -/
theorem nextItem_first {c : Cursor} {bl r : List UInt8} {b : UInt8} (h : c.rest = bl ++ b :: r)
    (hbl : ∀ x ∈ bl, isSpace x = true) (hb : StartsValue b) :
    nextItem c true = .ok (some c.skipBlanks) ∧ c.skipBlanks.rest = b :: r := by
  have hs := Cursor.skipBlanks_blanks h hbl hb.1
  refine ⟨?_, hs⟩
  obtain ⟨-, h44, h93, -⟩ := hb
  rw [nextItem, Cursor.peek_eq hs]
  split <;> simp_all

/-- A further element of an array is found after a comma and blanks. -/
theorem nextItem_next {c : Cursor} {bl r : List UInt8} {b : UInt8} (h : c.rest = 44 :: (bl ++ b :: r))
    (hbl : ∀ x ∈ bl, isSpace x = true) (hb : StartsValue b) :
    nextItem c false = .ok (some c.bump.skipBlanks) ∧ c.bump.skipBlanks.rest = b :: r := by
  have hs := Cursor.skipBlanks_blanks (Cursor.bump_rest h) hbl hb.1
  refine ⟨?_, hs⟩
  obtain ⟨-, -, h93, -⟩ := hb
  rw [nextItem, Cursor.skipBlanks_of_head h (by decide), Cursor.peek_eq h]
  simp only [Bool.false_eq_true, if_false, Cursor.peek_eq hs]

/-- Blanks and a closing bracket end an array. -/
theorem nextItem_close {c : Cursor} {bl more : List UInt8} (h : c.rest = bl ++ 93 :: more)
    (hbl : ∀ x ∈ bl, isSpace x = true) (first : Bool) :
    nextItem c first = .ok none ∧ c.skipBlanks.rest = 93 :: more := by
  have hs := Cursor.skipBlanks_blanks h hbl (by decide)
  refine ⟨?_, hs⟩
  rw [nextItem, Cursor.peek_eq hs]
  rfl

theorem prettyItems_one_bytes (L : Nat) (j : Json) :
    bytesOf (prettyItems L [j]) = bytesOf (indent L) ++ bytesOf (prettyAt L j) := by
  simp [prettyItems]

theorem bytesOf_comma_break : bytesOf ",\n" = [44, 10] := by
  simp [bytesOf_eq]; decide

theorem prettyItems_cons_bytes (L : Nat) (j k : Json) (rest : List Json) :
    bytesOf (prettyItems L (j :: k :: rest)) =
      bytesOf (indent L) ++ bytesOf (prettyAt L j) ++ [44, 10] ++ bytesOf (prettyItems L (k :: rest)) := by
  simp [prettyItems, bytesOf_comma_break]

/-- The bytes before an element: a line break after the opening bracket, or a comma and a line
break after the element before. -/
def itemSep (first : Bool) : List UInt8 := if first then [10] else [44, 10]

/-- An element is found after its separator and its indentation. -/
theorem nextItem_indented {c : Cursor} {first : Bool} {L : Nat} {b : UInt8} {r : List UInt8}
    (h : c.rest = itemSep first ++ (bytesOf (indent L) ++ b :: r)) (hb : StartsValue b) :
    ∃ c1, nextItem c first = .ok (some c1) ∧ c1.rest = b :: r := by
  cases first
  · have h' : c.rest = 44 :: ((10 :: bytesOf (indent L)) ++ b :: r) := by
      rw [h]; simp [itemSep]
    obtain ⟨hn, hs⟩ := nextItem_next h' (by simpa [isSpace] using indent_blank) hb
    exact ⟨_, hn, hs⟩
  · have h' : c.rest = (10 :: bytesOf (indent L)) ++ b :: r := by
      rw [h]; simp [itemSep]
    obtain ⟨hn, hs⟩ := nextItem_first h' (by simpa [isSpace] using indent_blank) hb
    exact ⟨_, hn, hs⟩

/-- The elements of an array as the printer writes them, one per line, read back one by one;
reading stops at the closing bracket. -/
theorem readItems_pretty {item : Shape} {L e : Nat} {bl : List UInt8}
    (hbl : ∀ x ∈ bl, isSpace x = true) {items : List Json} {ds : List Datum}
    (hall : List.Forall₂ (fun j d => ReadsAs item (bytesOf (prettyAt L j)) d e) items ds)
    (hne : items ≠ []) :
    ∀ (fuel : Nat) (c : Cursor) (first : Bool) (acc : List Datum) (more : List UInt8),
      c.rest = itemSep first ++ bytesOf (prettyItems L items) ++ bl ++ 93 :: more →
      (itemSep first ++ bytesOf (prettyItems L items) ++ bl).length + e < fuel →
      ∃ c', readItems fuel item c first acc = .ok (acc.reverse ++ ds, c') ∧ c'.rest = 93 :: more := by
  induction hall with
  | nil => exact absurd rfl hne
  | @cons j d rest ds' hjd hrest ih =>
    intro fuel c first acc more hc hfuel
    obtain ⟨f, rfl⟩ : ∃ f, fuel = f + 1 := ⟨fuel - 1, by simp at hfuel; omega⟩
    obtain ⟨b, r, hJ, hb⟩ := hjd.head
    have hsep : (itemSep first).length ≥ 1 := by cases first <;> simp [itemSep]
    cases rest with
    | nil =>
      -- the last element, then the closing bracket
      cases hrest
      have hc' : c.rest = itemSep first ++ (bytesOf (indent L) ++ b :: (r ++ bl ++ 93 :: more)) := by
        rw [hc, prettyItems_one_bytes, hJ]; simp
      obtain ⟨c1, hnext, hc1⟩ := nextItem_indented hc' hb
      have hlen : (bytesOf (prettyAt L j)).length + e < f := by
        simp [prettyItems_one_bytes] at hfuel; omega
      obtain ⟨c2, hval, hc2⟩ := hjd.read f c1 (bl ++ 93 :: more) hlen (by rw [hc1, hJ]; simp)
      obtain ⟨hclose, hs⟩ := nextItem_close hc2 hbl false
      refine ⟨c2.skipBlanks, ?_, hs⟩
      obtain ⟨f', rfl⟩ : ∃ f', f = f' + 1 := ⟨f - 1, by rw [hJ] at hlen; simp at hlen; omega⟩
      rw [readItems, hnext]
      simp only [hval]
      rw [readItems, hclose]
      simp
    | cons k rest' =>
      -- an element, a comma, and the elements after it
      have hc' : c.rest = itemSep first ++ (bytesOf (indent L) ++ b :: (r ++
          (itemSep false ++ bytesOf (prettyItems L (k :: rest')) ++ bl ++ 93 :: more))) := by
        rw [hc, prettyItems_cons_bytes, hJ]; simp [itemSep]
      obtain ⟨c1, hnext, hc1⟩ := nextItem_indented hc' hb
      have hlen : (bytesOf (prettyAt L j)).length + e < f := by
        simp [prettyItems_cons_bytes] at hfuel; omega
      obtain ⟨c2, hval, hc2⟩ := hjd.read f c1
        (itemSep false ++ bytesOf (prettyItems L (k :: rest')) ++ bl ++ 93 :: more) hlen
        (by rw [hc1, hJ]; simp)
      obtain ⟨c3, hrec, hc3⟩ := ih (by simp) f c2 false (d :: acc) more (by simpa using hc2)
        (by simp [prettyItems_cons_bytes, itemSep, hJ] at hfuel ⊢; omega)
      refine ⟨c3, ?_, hc3⟩
      rw [readItems, hnext]
      simp only [hval, hrec]
      simp

theorem endSeq_close {c : Cursor} {more : List UInt8} (h : c.rest = 93 :: more) :
    endSeq c = .ok c.bump ∧ c.bump.rest = more := by
  refine ⟨?_, Cursor.bump_rest h⟩
  rw [endSeq, Cursor.skipBlanks_of_head h (by decide), Cursor.peek_eq h]
  rfl

theorem prettyAt_arr_bytes (L : Nat) (j : Json) (rest : List Json) :
    bytesOf (prettyAt L (.arr (j :: rest))) =
      91 :: (itemSep true ++ bytesOf (prettyItems (L + 1) (j :: rest)) ++
        (10 :: bytesOf (indent L)) ++ [93]) := by
  have hopen : bytesOf "[\n" = [91, 10] := by simp [bytesOf_eq]; decide
  have hbreak : bytesOf "\n" = [10] := by simp [bytesOf_eq]; decide
  have hclose : bytesOf "]" = [93] := by simp [bytesOf_eq]; decide
  simp [prettyAt, hopen, hbreak, hclose, itemSep]

/-- An array as the printer writes it reads back element by element: the empty array as `[]`,
any other with one element per line. -/
theorem readsAs_list {item : Shape} {L e : Nat} {items : List Json} {ds : List Datum}
    (hall : List.Forall₂ (fun j d => ReadsAs item (bytesOf (prettyAt (L + 1) j)) d e) items ds) :
    ReadsAs (.list item) (bytesOf (prettyAt L (.arr items))) (.list ds) e := by
  cases hall with
  | nil =>
    have hbytes : bytesOf (prettyAt L (.arr [])) = [91, 93] := by
      simp [prettyAt, bytesOf_eq]; decide
    rw [hbytes]
    refine ⟨⟨91, _, rfl, by decide⟩, fun fuel c more hf h => ?_⟩
    obtain ⟨f, rfl⟩ : ∃ f, fuel = f + 1 := ⟨fuel - 1, by omega⟩
    obtain ⟨f', rfl⟩ : ∃ f', f = f' + 1 := ⟨f - 1, by simp at hf; omega⟩
    have h' : c.rest = 91 :: ([] ++ 93 :: more) := h
    obtain ⟨hclose, hs⟩ := nextItem_close (Cursor.bump_rest h') (by simp) true
    obtain ⟨hend, hrest⟩ := endSeq_close hs
    refine ⟨_, ?_, hrest⟩
    rw [readValue, Cursor.skipBlanks_of_head h' (by decide)]
    simp [Cursor.peek_eq h', readItems, hclose, hend]
  | @cons j d rest ds' hjd hrest =>
    rw [prettyAt_arr_bytes]
    refine ⟨⟨91, _, rfl, by decide⟩, fun fuel c more hf h => ?_⟩
    obtain ⟨f, rfl⟩ : ∃ f, fuel = f + 1 := ⟨fuel - 1, by omega⟩
    have h' : c.rest = 91 :: (itemSep true ++ bytesOf (prettyItems (L + 1) (j :: rest)) ++
        (10 :: bytesOf (indent L)) ++ 93 :: more) := by
      rw [h]; simp
    obtain ⟨c', hitems, hc'⟩ := readItems_pretty (by simpa [isSpace] using indent_blank)
      (List.Forall₂.cons hjd hrest) (by simp) f c.bump true [] more (Cursor.bump_rest h')
      (by simp at hf ⊢; omega)
    obtain ⟨hend, hfinal⟩ := endSeq_close hc'
    refine ⟨_, ?_, hfinal⟩
    rw [readValue, Cursor.skipBlanks_of_head h' (by decide)]
    simp [Cursor.peek_eq h', hitems, hend]

/-! ## Numbers -/

/-- What may follow a value for it to end there: nothing, or a byte that cannot start a value
(a blank, a comma, a closing bracket or brace). -/
def Delimits (more : List UInt8) : Prop := ∀ b ∈ more.head?, ¬ StartsValue b

theorem Delimits.not_startsValue {more : List UInt8} (h : Delimits more) {b : UInt8}
    (hb : more.head? = some b) (hs : StartsValue b) : False :=
  h b hb hs

/-- `bytes` read as `d` against `shape` before anything that delimits them. A number reads on
while digits follow it, so it reads back only in this sense. -/
structure ReadsAsDelimited (shape : Shape) (bytes : List UInt8) (d : Datum) (extra : Nat) : Prop where
  head : ∃ b r, bytes = b :: r ∧ StartsValue b
  read : ∀ fuel c more, Delimits more → bytes.length + extra < fuel → c.rest = bytes ++ more →
    ∃ c', readValue fuel shape c = .ok (d, c') ∧ c'.rest = more

theorem ReadsAs.delimited {shape : Shape} {bytes : List UInt8} {d : Datum} {e : Nat}
    (h : ReadsAs shape bytes d e) : ReadsAsDelimited shape bytes d e :=
  ⟨h.head, fun fuel c more _ hf hc => h.read fuel c more hf hc⟩

theorem ReadsAsDelimited.mono {shape : Shape} {bytes : List UInt8} {d : Datum} {e e' : Nat}
    (h : ReadsAsDelimited shape bytes d e) (he : e ≤ e') : ReadsAsDelimited shape bytes d e' :=
  ⟨h.head, fun fuel c more hd hf hc => h.read fuel c more hd (by omega) hc⟩

theorem startsValue_of_isDigit {b : UInt8} (h : isDigit b = true) : StartsValue b := by
  simp only [isDigit, Bool.and_eq_true, decide_eq_true_eq] at h
  simp only [StartsValue, isSpace, Bool.or_eq_false_iff, decide_eq_false_iff_not]
  refine ⟨⟨⟨⟨?_, ?_⟩, ?_⟩, ?_⟩, ?_, ?_, ?_⟩ <;> intro hb <;> subst hb <;> simp_all

theorem isDigit_of_delimits {more : List UInt8} (hmore : Delimits more) {d : UInt8}
    (hd : more.head? = some d) : isDigit d = false := by
  by_contra h
  exact hmore.not_startsValue hd (startsValue_of_isDigit (by simpa using h))

/-- The byte of a decimal digit. -/
def digitByte (d : Nat) : UInt8 := (48 + d).toUInt8

/-- Digits, most significant first, read onto the value read before them. -/
def digitsValue (sig : Nat) (ds : List Nat) : Nat := ds.foldl (fun a d => a * 10 + d) sig

theorem le_digitsValue (sig : Nat) (ds : List Nat) : sig ≤ digitsValue sig ds := by
  induction ds generalizing sig with
  | nil => exact le_refl sig
  | cons d ds ih => exact le_trans (by omega) (ih (sig * 10 + d))

theorem digitByte_props {d : Nat} (hd : d < 10) :
    StartsValue (digitByte d) ∧ isDigit (digitByte d) = true ∧ (digitByte d).toNat - 48 = d := by
  interval_cases d <;> decide

/-- After the digits, a delimiter ends an unsigned number. -/
theorem parseNumberTail_delimited {c : Cursor} (hd : Delimits c.rest) (sig : Nat) :
    parseNumberTail c true sig = .ok (.unsigned sig, c) := by
  unfold parseNumberTail
  split
  · next h => exact (hd.not_startsValue h (by decide)).elim
  · next h => exact (hd.not_startsValue h (by decide)).elim
  · next h => exact (hd.not_startsValue h (by decide)).elim
  · rfl

/-- The digit loop reads digits onto the value so far; as long as the value stays within 64 bits
it never turns to the long form, and it stops at the delimiter. -/
theorem parseInteger_digits {more : List UInt8} (hmore : Delimits more) :
    ∀ (ds : List Nat) (fuel : Nat) (c : Cursor) (sig : Nat), (∀ d ∈ ds, d < 10) →
      c.rest = ds.map digitByte ++ more → ds.length < fuel → digitsValue sig ds ≤ u64Max →
      ∃ c', parseInteger.digits true fuel c sig = .ok (.unsigned (digitsValue sig ds), c') ∧
        c'.rest = more := by
  intro ds
  induction ds with
  | nil =>
    intro fuel c sig _ hc hfuel _
    obtain ⟨f, rfl⟩ : ∃ f, fuel = f + 1 := ⟨fuel - 1, by simp at hfuel; omega⟩
    simp only [List.map_nil, List.nil_append] at hc
    refine ⟨c, ?_, hc⟩
    rw [parseInteger.digits]
    split
    · next b h =>
      rw [if_neg (by simp [isDigit_of_delimits hmore (by simpa [Cursor.peek, hc] using h)])]
      exact parseNumberTail_delimited (hc ▸ hmore) sig
    · exact parseNumberTail_delimited (hc ▸ hmore) sig
  | cons d ds ih =>
    intro fuel c sig hds hc hfuel hval
    obtain ⟨f, rfl⟩ : ∃ f, fuel = f + 1 := ⟨fuel - 1, by simp at hfuel; omega⟩
    obtain ⟨-, hdigit, hvalue⟩ := digitByte_props (hds d (by simp))
    have hc' : c.rest = digitByte d :: (ds.map digitByte ++ more) := by simpa using hc
    -- the value after this digit is at most the final one
    have hnext : sig * 10 + d ≤ u64Max := le_trans (le_digitsValue _ ds) hval
    obtain ⟨c', hread, hrest⟩ := ih f c.bump (sig * 10 + d) (fun x hx => hds x (by simp [hx]))
      (Cursor.bump_rest hc') (by simp at hfuel; omega) hval
    refine ⟨c', ?_, hrest⟩
    rw [parseInteger.digits, Cursor.peek_eq hc']
    simp only [hdigit, if_true, hvalue, if_neg (show ¬ sig * 10 + d > u64Max by omega)]
    exact hread

/-- A lone `0` is the number zero, when no digit follows it. -/
theorem parseInteger_zero {c : Cursor} {more : List UInt8} (hc : c.rest = 48 :: more)
    (hmore : Delimits more) : parseInteger c true = .ok (.unsigned 0, c.bump) := by
  have hrest := Cursor.bump_rest hc
  rw [parseInteger, Cursor.peek_eq hc]
  simp only [if_true]
  split
  · next d h =>
    rw [if_neg (by simp [isDigit_of_delimits hmore (by simpa [Cursor.peek, hrest] using h)])]
    exact parseNumberTail_delimited (hrest ▸ hmore) 0
  · exact parseNumberTail_delimited (hrest ▸ hmore) 0

theorem utf8EncodeChar_digitChar {d : Nat} (hd : d < 10) :
    String.utf8EncodeChar (Nat.digitChar d) = [digitByte d] := by
  interval_cases d <;> rfl

/-- Decimal digits are written one byte each. -/
theorem digitChars_bytes {ds : List Nat} (hds : ∀ d ∈ ds, d < 10) :
    (ds.map Nat.digitChar).flatMap String.utf8EncodeChar = ds.map digitByte := by
  induction ds with
  | nil => rfl
  | cons d ds ih =>
    simp only [List.map_cons, List.flatMap_cons, utf8EncodeChar_digitChar (hds d (by simp))]
    rw [ih fun x hx => hds x (by simp [hx])]
    rfl

/-- The printed digits of a positive number are its decimal digits, most significant first. -/
theorem toDigits_ten {n : Nat} (hn : 0 < n) :
    Nat.toDigits 10 n = (Nat.digits 10 n).reverse.map Nat.digitChar := by
  induction n using Nat.strong_induction_on with
  | _ n ih =>
    by_cases hlt : n < 10
    · rw [Nat.toDigits_of_lt_base hlt, Nat.digits_of_lt 10 n (by omega) hlt]
      rfl
    · have hq : 0 < n / 10 := by omega
      have hsplit := Nat.toDigits_append_toDigits (b := 10) (by omega) hq (Nat.mod_lt n (by omega))
      rw [Nat.div_add_mod, Nat.toDigits_of_lt_base (Nat.mod_lt n (by omega))] at hsplit
      rw [← hsplit, ih (n / 10) (by omega) hq, Nat.digits_def' (by omega) hn]
      simp

theorem digitsValue_reverse_digits (n : Nat) : digitsValue 0 (Nat.digits 10 n).reverse = n := by
  have hfold : ∀ L : List Nat, digitsValue 0 L.reverse = Nat.ofDigits 10 L := by
    intro L
    induction L with
    | nil => rfl
    | cons d L ih =>
      simp only [digitsValue, List.reverse_cons, List.foldl_append, List.foldl_cons,
        List.foldl_nil] at ih ⊢
      rw [ih, Nat.ofDigits_cons]
      omega
  rw [hfold, Nat.ofDigits_digits]

/-- A number is written as its decimal digits. -/
theorem nat_bytes (L n : Nat) :
    bytesOf (prettyAt L (Json.nat n)) = (Nat.toDigits 10 n).flatMap String.utf8EncodeChar := by
  simp [Json.nat, prettyAt, compact, intText, bytesOf_eq]

/-- A count reads back before a delimiter, as long as it fits in 64 bits. -/
theorem readsAs_nat (L n : Nat) (hn : n ≤ u64Max) :
    ReadsAsDelimited .count (bytesOf (prettyAt L (Json.nat n))) (.count n) 0 := by
  rcases Nat.eq_zero_or_pos n with rfl | hpos
  · -- zero is the single digit `0`, which no digit may follow
    have hbytes : bytesOf (prettyAt L (Json.nat 0)) = [48] := by rw [nat_bytes]; rfl
    rw [hbytes]
    refine ⟨⟨48, [], rfl, by decide⟩, fun fuel c more hmore hf hc => ?_⟩
    obtain ⟨f, rfl⟩ : ∃ f, fuel = f + 1 := ⟨fuel - 1, by simp at hf; omega⟩
    have hc' : c.rest = 48 :: more := hc
    refine ⟨c.bump, ?_, Cursor.bump_rest hc'⟩
    rw [readValue, Cursor.skipBlanks_of_head hc' (by decide)]
    simp +decide [Cursor.peek_eq hc', parseInteger_zero hc' hmore]
  · -- a positive number: its leading digit is no `0`, and the rest are read one by one
    obtain ⟨ds, d, hsplit⟩ := (List.eq_nil_or_concat (Nat.digits 10 n)).resolve_left
      (Nat.digits_ne_nil_iff_ne_zero.2 (by omega))
    have hlast : d ≠ 0 := by
      have := Nat.getLast_digit_ne_zero 10 (m := n) (by omega)
      simpa [hsplit] using this
    have hdigits : ∀ x ∈ d :: ds.reverse, x < 10 := fun x hx =>
      Nat.digits_lt_base (by omega) (by rw [hsplit]; simpa [or_comm] using hx)
    have hrev : (Nat.digits 10 n).reverse = d :: ds.reverse := by simp [hsplit]
    have hbytes : bytesOf (prettyAt L (Json.nat n)) = digitByte d :: ds.reverse.map digitByte := by
      rw [nat_bytes, toDigits_ten hpos, hrev, digitChars_bytes hdigits, List.map_cons]
    have hvalue : digitsValue d ds.reverse = n := by
      rw [← digitsValue_reverse_digits n, hrev]
      simp [digitsValue]
    obtain ⟨hstart, hdigit, hd⟩ := digitByte_props (hdigits d (by simp))
    have hzero : digitByte d ≠ 48 := fun h => hlast (by simpa [h] using hd.symm)
    rw [hbytes]
    refine ⟨⟨_, _, rfl, hstart⟩, fun fuel c more hmore hf hc => ?_⟩
    obtain ⟨f, rfl⟩ : ∃ f, fuel = f + 1 := ⟨fuel - 1, by simp at hf; omega⟩
    have hc' : c.rest = digitByte d :: (ds.reverse.map digitByte ++ more) := by simpa using hc
    obtain ⟨c', hread, hrest⟩ := parseInteger_digits hmore ds.reverse (c.bump.rest.length + 1) c.bump d
      (fun x hx => hdigits x (by simp [hx])) (Cursor.bump_rest hc')
      (by rw [Cursor.bump_rest hc']; simp) (by rw [hvalue]; exact hn)
    have hint : parseInteger c true = .ok (.unsigned n, c') := by
      rw [parseInteger, Cursor.peek_eq hc']
      simp only [hzero, if_false, hdigit, if_true, hd]
      rw [← hvalue]
      exact hread
    refine ⟨c', ?_, hrest⟩
    rw [readValue, Cursor.skipBlanks_of_head hc' hstart.1]
    simp only [Cursor.peek_eq hc']
    split
    · next h => cases h
    · next h =>
      -- a digit is no minus sign
      rw [Option.some.inj h] at hdigit
      exact absurd hdigit (by decide)
    · next b h =>
      obtain rfl := Option.some.inj h
      simp [hdigit, hint]

/-! ## Objects -/

theorem bytesOf_colon_space : bytesOf ": " = [58, 32] := by
  simp [bytesOf_eq]; decide

theorem prettyFields_one_bytes (L : Nat) (k : String) (v : Json) :
    bytesOf (prettyFields L [(k, v)]) =
      bytesOf (indent L) ++ bytesOf (quote k) ++ [58, 32] ++ bytesOf (prettyAt L v) := by
  simp [prettyFields, bytesOf_colon_space]

theorem prettyFields_cons_bytes (L : Nat) (k : String) (v : Json) (m : String × Json)
    (rest : List (String × Json)) :
    bytesOf (prettyFields L ((k, v) :: m :: rest)) =
      bytesOf (indent L) ++ bytesOf (quote k) ++ [58, 32] ++ bytesOf (prettyAt L v) ++ [44, 10] ++
        bytesOf (prettyFields L (m :: rest)) := by
  simp [prettyFields, bytesOf_colon_space, bytesOf_comma_break]

theorem prettyAt_obj_bytes (L : Nat) (m : String × Json) (rest : List (String × Json)) :
    bytesOf (prettyAt L (.obj (m :: rest))) =
      123 :: (itemSep true ++ bytesOf (prettyFields (L + 1) (m :: rest)) ++
        (10 :: bytesOf (indent L)) ++ [125]) := by
  have hopen : bytesOf "\x7b\n" = [123, 10] := by simp [bytesOf_eq]; decide
  have hbreak : bytesOf "\n" = [10] := by simp [bytesOf_eq]; decide
  have hclose : bytesOf "\x7d" = [125] := by simp [bytesOf_eq]; decide
  simp [prettyAt, hopen, hbreak, hclose, itemSep]

/-- A key is found after its separator and its indentation, and read up to its closing quote. -/
theorem nextKey_indented {fuel : Nat} {c : Cursor} {first : Bool} {L : Nat} {k : String}
    {r : List UInt8} (h : c.rest = itemSep first ++ (bytesOf (indent L) ++ (bytesOf (quote k) ++ r)))
    (hfuel : (bytesOf (quote k)).length ≤ fuel) :
    ∃ c1, nextKey fuel c first = .ok (some (k, c1)) ∧ c1.rest = r := by
  obtain ⟨q, hq⟩ : ∃ q, bytesOf (quote k) = 34 :: q := ⟨_, quote_bytes k⟩
  cases first
  · -- a comma, then blanks up to the key
    have h' : c.rest = 44 :: ((10 :: bytesOf (indent L)) ++ 34 :: (q ++ r)) := by
      rw [h, hq]; simp [itemSep]
    have hs := Cursor.skipBlanks_blanks (Cursor.bump_rest h')
      (by simpa [isSpace] using indent_blank) (by decide)
    obtain ⟨c1, hread, hc1⟩ := parseStr_quote k fuel
      (show c.bump.skipBlanks.rest = bytesOf (quote k) ++ r by rw [hs, hq]; simp) hfuel
    refine ⟨c1, ?_, hc1⟩
    rw [nextKey, Cursor.skipBlanks_of_head h' (by decide), Cursor.peek_eq h']
    simp [Cursor.peek_eq hs, hread]
  · -- blanks up to the key
    have h' : c.rest = (10 :: bytesOf (indent L)) ++ 34 :: (q ++ r) := by
      rw [h, hq]; simp [itemSep]
    have hs := Cursor.skipBlanks_blanks h' (by simpa [isSpace] using indent_blank) (by decide)
    obtain ⟨c1, hread, hc1⟩ := parseStr_quote k fuel
      (show c.skipBlanks.rest = bytesOf (quote k) ++ r by rw [hs, hq]; simp) hfuel
    refine ⟨c1, ?_, hc1⟩
    rw [nextKey, Cursor.peek_eq hs]
    simp [Cursor.peek_eq hs, hread]

/-- Blanks and a closing brace end an object. -/
theorem nextKey_close (fuel : Nat) {c : Cursor} {bl more : List UInt8}
    (h : c.rest = bl ++ 125 :: more) (hbl : ∀ x ∈ bl, isSpace x = true) (first : Bool) :
    nextKey fuel c first = .ok none := by
  rw [nextKey, Cursor.peek_eq (Cursor.skipBlanks_blanks h hbl (by decide))]
  rfl

theorem colon_space {c : Cursor} {r : List UInt8} (h : c.rest = 58 :: 32 :: r) :
    colon c = .ok c.bump ∧ c.bump.rest = 32 :: r := by
  refine ⟨?_, Cursor.bump_rest h⟩
  rw [colon, Cursor.skipBlanks_of_head h (by decide), Cursor.peek_eq h]
  rfl

theorem endMap_close {c : Cursor} {bl more : List UInt8} (h : c.rest = bl ++ 125 :: more)
    (hbl : ∀ x ∈ bl, isSpace x = true) :
    ∃ c', endMap c = .ok c' ∧ c'.rest = more := by
  have hs := Cursor.skipBlanks_blanks h hbl (by decide)
  refine ⟨c.skipBlanks.bump, ?_, Cursor.bump_rest hs⟩
  rw [endMap, Cursor.peek_eq hs]
  rfl

/-- Blanks before a value are skipped. -/
theorem ReadsAsDelimited.read_blanks {shape : Shape} {bytes : List UInt8} {d : Datum} {e : Nat}
    (h : ReadsAsDelimited shape bytes d e) {fuel : Nat} {c : Cursor} {bl more : List UInt8}
    (hbl : ∀ x ∈ bl, isSpace x = true) (hc : c.rest = bl ++ bytes ++ more) (hmore : Delimits more)
    (hf : bytes.length + e < fuel) :
    ∃ c', readValue fuel shape c = .ok (d, c') ∧ c'.rest = more := by
  obtain ⟨b, r, hbytes, hb⟩ := h.head
  obtain ⟨f, rfl⟩ : ∃ f, fuel = f + 1 := ⟨fuel - 1, by omega⟩
  have hs : c.skipBlanks.rest = bytes ++ more := by
    rw [Cursor.skipBlanks_blanks (show c.rest = bl ++ b :: (r ++ more) by rw [hc, hbytes]; simp)
      hbl hb.1, hbytes]
    rfl
  rw [← readValue_skipBlanks]
  exact h.read (f + 1) c.skipBlanks more hmore hf hs

/-- A member as the printer writes it reads back against the field of its name: the key is kept
and the value reads as the datum. -/
def MemberReads (fields : List (String × Shape × Bool)) (L e : Nat) (m : String × Json)
    (p : String × Datum) : Prop :=
  p.1 = m.1 ∧ ∃ sh opt, fields.find? (fun f => f.1 == m.1) = some (m.1, sh, opt) ∧
    ReadsAs sh (bytesOf (prettyAt L m.2)) p.2 e

/-- A member whose value reads back before the comma or the closing brace that follows it. -/
def MemberReadsDelimited (fields : List (String × Shape × Bool)) (L e : Nat) (m : String × Json)
    (p : String × Datum) : Prop :=
  p.1 = m.1 ∧ ∃ sh opt, fields.find? (fun f => f.1 == m.1) = some (m.1, sh, opt) ∧
    ReadsAsDelimited sh (bytesOf (prettyAt L m.2)) p.2 e

theorem MemberReads.delimited {fields : List (String × Shape × Bool)} {L e : Nat}
    {m : String × Json} {p : String × Datum} (h : MemberReads fields L e m p) :
    MemberReadsDelimited fields L e m p :=
  let ⟨hkey, sh, opt, hfind, hread⟩ := h
  ⟨hkey, sh, opt, hfind, hread.delimited⟩

/-- A comma delimits a member from the next one. -/
theorem delimits_comma (more : List UInt8) : Delimits (44 :: more) := by
  simp [Delimits, StartsValue]

/-- Blanks, or the closing brace after them, delimit the last member. -/
theorem delimits_blanks_close {bl : List UInt8} (hbl : ∀ x ∈ bl, isSpace x = true) (more : List UInt8) :
    Delimits (bl ++ 125 :: more) := by
  cases bl with
  | nil => simp [Delimits, StartsValue]
  | cons b bl => simp [Delimits, StartsValue, hbl b (by simp)]

/-- Every field that may not be left out is among `keys`. -/
def RequiredPresent (fields : List (String × Shape × Bool)) (keys : List String) : Prop :=
  ∀ key sh, (key, sh, false) ∈ fields → sh.isMaybe = false → key ∈ keys

theorem RequiredPresent.mono {fields : List (String × Shape × Bool)} {keys keys' : List String}
    (h : RequiredPresent fields keys) (hsub : ∀ x ∈ keys, x ∈ keys') :
    RequiredPresent fields keys' :=
  fun key sh hmem hm => hsub key (h key sh hmem hm)

/-- Nothing is missing at the closing brace when every required field was read. -/
theorem find?_missing {fields : List (String × Shape × Bool)} {acc : List (String × Datum)}
    (h : RequiredPresent fields (acc.map Prod.fst)) :
    (fields.find? fun (key, fieldShape, optional) =>
      !optional && !fieldShape.isMaybe && !(acc.any fun (k, _) => k == key)) = none := by
  rw [List.find?_eq_none]
  rintro ⟨key, sh, opt⟩ hmem
  cases opt with
  | true => simp
  | false =>
    cases hm : sh.isMaybe with
    | true => simp [hm]
    | false =>
      obtain ⟨p, hp, rfl⟩ := List.mem_map.1 (h key sh hmem hm)
      have hany : (acc.any fun x => x.fst == p.fst) = true := List.any_eq_true.2 ⟨p, hp, by simp⟩
      simp [hany]

/-- One member: its key, the colon and its value are read, and reading goes on after it. -/
theorem readMembers_member {fields : List (String × Shape × Bool)} {L e : Nat} {k : String}
    {v : Json} {d : Datum} {sh : Shape} {opt : Bool}
    (hfind : fields.find? (fun f => f.1 == k) = some (k, sh, opt))
    (hread : ReadsAsDelimited sh (bytesOf (prettyAt L v)) d e) {f : Nat} {c : Cursor} {first : Bool}
    {acc : List (String × Datum)} {tail : List UInt8} (htail : Delimits tail)
    (hfresh : k ∉ acc.map Prod.fst)
    (hc : c.rest = itemSep first ++ (bytesOf (indent L) ++
      (bytesOf (quote k) ++ (58 :: 32 :: (bytesOf (prettyAt L v) ++ tail)))))
    (hf : (bytesOf (quote k)).length + (bytesOf (prettyAt L v)).length + e < f) :
    ∃ c2, readMembers (f + 1) fields c first acc = readMembers f fields c2 false ((k, d) :: acc) ∧
      c2.rest = tail := by
  have hkf : (bytesOf (quote k)).length ≤ f := by omega
  have hvf : (bytesOf (prettyAt L v)).length + e < f := by omega
  obtain ⟨c1, hnext, hc1⟩ := nextKey_indented hc hkf
  obtain ⟨hcolon, hc1'⟩ := colon_space hc1
  obtain ⟨c2, hval, hc2⟩ := hread.read_blanks (by simp [isSpace])
    (show c1.bump.rest = [32] ++ bytesOf (prettyAt L v) ++ tail by rw [hc1']; simp) htail hvf
  refine ⟨c2, ?_, hc2⟩
  have hany : (acc.any fun x => x.fst == k) = false := by
    simp only [List.any_eq_false, beq_iff_eq]
    rintro ⟨a, b⟩ hab rfl
    exact hfresh (List.mem_map.2 ⟨_, hab, rfl⟩)
  rw [readMembers, hnext]
  simp only [hfind, hany, hcolon, hval]
  rfl

/-- The members of an object as the printer writes them, one per line, read back one by one; at
the closing brace every required field has been read, so the record is done. -/
theorem readMembers_pretty {fields : List (String × Shape × Bool)} {L e : Nat} {bl : List UInt8}
    (hbl : ∀ x ∈ bl, isSpace x = true) {members : List (String × Json)}
    {got : List (String × Datum)} (hall : List.Forall₂ (MemberReadsDelimited fields L e) members got)
    (hne : members ≠ []) :
    ∀ (fuel : Nat) (c : Cursor) (first : Bool) (acc : List (String × Datum)) (more : List UInt8),
      (members.map Prod.fst ++ acc.map Prod.fst).Nodup →
      RequiredPresent fields (members.map Prod.fst ++ acc.map Prod.fst) →
      c.rest = itemSep first ++ bytesOf (prettyFields L members) ++ bl ++ 125 :: more →
      (itemSep first ++ bytesOf (prettyFields L members) ++ bl).length + e < fuel →
      ∃ c', readMembers fuel fields c first acc = .done (acc.reverse ++ got) c' ∧
        c'.rest = bl ++ 125 :: more := by
  induction hall with
  | nil => exact absurd rfl hne
  | @cons m p rest got' hmp hrest ih =>
    intro fuel c first acc more hnodup hreq hc hfuel
    obtain ⟨k, v⟩ := m
    obtain ⟨k', d⟩ := p
    obtain ⟨hkey, sh, opt, hfind, hread⟩ := hmp
    simp only at hkey hfind hread
    subst hkey
    obtain ⟨f, rfl⟩ : ∃ f, fuel = f + 1 := ⟨fuel - 1, by omega⟩
    have hfresh : k' ∉ acc.map Prod.fst := by
      simp only [List.map_cons, List.cons_append, List.nodup_cons, List.mem_append] at hnodup
      exact fun h => hnodup.1 (Or.inr h)
    cases rest with
    | nil =>
      -- the last member, then the closing brace
      cases hrest
      have hc' : c.rest = itemSep first ++ (bytesOf (indent L) ++
          (bytesOf (quote k') ++ (58 :: 32 :: (bytesOf (prettyAt L v) ++ (bl ++ 125 :: more))))) := by
        rw [hc, prettyFields_one_bytes]; simp
      have hlen : (bytesOf (quote k')).length + (bytesOf (prettyAt L v)).length + e < f := by
        simp [prettyFields_one_bytes] at hfuel; omega
      obtain ⟨c2, hstep, hc2⟩ := readMembers_member hfind hread (delimits_blanks_close hbl more)
        hfresh hc' hlen
      obtain ⟨f', rfl⟩ : ∃ f', f = f' + 1 := ⟨f - 1, by omega⟩
      refine ⟨c2, ?_, hc2⟩
      have hreq' : RequiredPresent fields (((k', d) :: acc).map Prod.fst) := hreq.mono (by simp)
      have hmissing := find?_missing hreq'
      rw [hstep, readMembers, nextKey_close _ hc2 hbl false]
      simp only
      rw [hmissing]
      simp
    | cons m rest' =>
      -- a member, a comma, and the members after it
      have hc' : c.rest = itemSep first ++ (bytesOf (indent L) ++ (bytesOf (quote k') ++
          (58 :: 32 :: (bytesOf (prettyAt L v) ++
            (itemSep false ++ bytesOf (prettyFields L (m :: rest')) ++ bl ++ 125 :: more))))) := by
        rw [hc, prettyFields_cons_bytes]; simp [itemSep]
      have hlen : (bytesOf (quote k')).length + (bytesOf (prettyAt L v)).length + e < f := by
        simp [prettyFields_cons_bytes] at hfuel; omega
      obtain ⟨c2, hstep, hc2⟩ := readMembers_member hfind hread (delimits_comma _) hfresh hc' hlen
      have hperm : List.Perm ((m :: rest').map Prod.fst ++ ((k', d) :: acc).map Prod.fst)
          (k' :: ((m :: rest').map Prod.fst ++ acc.map Prod.fst)) :=
        List.perm_middle
      obtain ⟨c3, hrec, hc3⟩ := ih (by simp) f c2 false ((k', d) :: acc) more
        (hperm.nodup_iff.2 (by simpa using hnodup)) (hreq.mono (by simp; tauto)) hc2
        (by simp [prettyFields_cons_bytes, itemSep] at hfuel ⊢; omega)
      refine ⟨c3, ?_, hc3⟩
      rw [hstep, hrec]
      simp

/-- An object as the printer writes it reads back as a record, member by member, when its keys
are distinct, each names a field whose shape its value reads against, and no required field is
left out. Each value need only read back before what follows it, so members may be numbers. -/
theorem readsAs_record_delimited {name : String} {fields : List (String × Shape × Bool)} {L e : Nat}
    {members : List (String × Json)} {got : List (String × Datum)}
    (hall : List.Forall₂ (MemberReadsDelimited fields (L + 1) e) members got)
    (hnodup : (members.map Prod.fst).Nodup) (hreq : RequiredPresent fields (members.map Prod.fst)) :
    ReadsAs (.record name fields) (bytesOf (prettyAt L (.obj members))) (.record got) e := by
  cases hall with
  | nil =>
    have hbytes : bytesOf (prettyAt L (.obj [])) = [123, 125] := by
      simp [prettyAt, bytesOf_eq]; decide
    rw [hbytes]
    refine ⟨⟨123, _, rfl, by decide⟩, fun fuel c more hf h => ?_⟩
    obtain ⟨f, rfl⟩ : ∃ f, fuel = f + 1 := ⟨fuel - 1, by omega⟩
    obtain ⟨f', rfl⟩ : ∃ f', f = f' + 1 := ⟨f - 1, by simp at hf; omega⟩
    have h' : c.rest = 123 :: ([] ++ 125 :: more) := h
    have hclose := nextKey_close f' (Cursor.bump_rest h') (by simp) true
    obtain ⟨c', hend, hrest⟩ := endMap_close (Cursor.bump_rest h') (by simp)
    have hnone : RequiredPresent fields (([] : List (String × Datum)).map Prod.fst) := hreq
    have hmissing := find?_missing hnone
    refine ⟨c', ?_, hrest⟩
    rw [readValue, Cursor.skipBlanks_of_head h' (by decide)]
    simp only [Cursor.peek_eq h']
    rw [readMembers, hclose]
    simp only
    rw [hmissing]
    simp [hend]
  | @cons m p rest got' hmp hrest =>
    rw [prettyAt_obj_bytes]
    refine ⟨⟨123, _, rfl, by decide⟩, fun fuel c more hf h => ?_⟩
    obtain ⟨f, rfl⟩ : ∃ f, fuel = f + 1 := ⟨fuel - 1, by omega⟩
    have h' : c.rest = 123 :: (itemSep true ++ bytesOf (prettyFields (L + 1) (m :: rest)) ++
        (10 :: bytesOf (indent L)) ++ 125 :: more) := by
      rw [h]; simp
    have hbl : ∀ x ∈ 10 :: bytesOf (indent L), isSpace x = true := by
      simpa [isSpace] using indent_blank
    obtain ⟨c', hmembers, hc'⟩ := readMembers_pretty hbl (List.Forall₂.cons hmp hrest) (by simp)
      f c.bump true [] more (by simpa using hnodup) (hreq.mono (by simp))
      (Cursor.bump_rest h') (by simp at hf ⊢; omega)
    obtain ⟨c'', hend, hfinal⟩ := endMap_close hc' hbl
    refine ⟨c'', ?_, hfinal⟩
    rw [readValue, Cursor.skipBlanks_of_head h' (by decide)]
    simp [Cursor.peek_eq h', hmembers, hend]

theorem readsAs_record {name : String} {fields : List (String × Shape × Bool)} {L e : Nat}
    {members : List (String × Json)} {got : List (String × Datum)}
    (hall : List.Forall₂ (MemberReads fields (L + 1) e) members got)
    (hnodup : (members.map Prod.fst).Nodup) (hreq : RequiredPresent fields (members.map Prod.fst)) :
    ReadsAs (.record name fields) (bytesOf (prettyAt L (.obj members))) (.record got) e :=
  readsAs_record_delimited (hall.imp fun _ _ h => h.delimited) hnodup hreq

/-- A whole document as the printer writes it reads back, with nothing left after the value. -/
theorem readDocument_pretty {shape : Shape} {j : Json} {d : Datum} {e : Nat}
    (h : ReadsAs shape (bytesOf (pretty j)) d e) (he : e ≤ 16) :
    readDocument shape (pretty j) = .ok d := by
  obtain ⟨b, r, hbytes, -⟩ := h.head
  have hlen : 0 < (bytesOf (pretty j)).length := by simp [hbytes]
  obtain ⟨c', hread, hrest⟩ := h.read (2 * (bytesOf (pretty j)).length + 16)
    (Cursor.start (bytesOf (pretty j))) [] (by omega) (by simp [Cursor.start])
  have hend : c'.skipBlanks.peek = none := by
    simp [Cursor.peek, Cursor.skipBlanks_rest, hrest]
  simp only [bytesOf] at hread
  rw [readDocument]
  dsimp only
  rw [hread]
  simp [hend]

/-! ## Scalars and string lists as the indented printer writes them -/

theorem readsAs_bool (L : Nat) (b : Bool) :
    ReadsAs .flag (bytesOf (prettyAt L (.bool b))) (.flag b) 0 :=
  readsAs_flag b

theorem readsAs_str (what : String) (L : Nat) (s : String) :
    ReadsAs (.text what) (bytesOf (prettyAt L (.str s))) (.text s) 0 :=
  readsAs_text what s

/-- A list of strings reads back as the list of its texts. -/
theorem readsAs_strs (what : String) (L : Nat) (xs : List String) :
    ReadsAs (.list (.text what)) (bytesOf (prettyAt L (strs xs))) (.list (xs.map .text)) 0 := by
  apply readsAs_list
  induction xs with
  | nil => exact .nil
  | cons x xs ih => exact .cons (readsAs_str what (L + 1) x) ih

end Json

end Provisioning
