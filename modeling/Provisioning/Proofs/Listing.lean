import Provisioning.Host.Listing
import Provisioning.Proofs.Json
import Mathlib.Data.List.TakeWhile
/-!
Where the host's listing is found in its output.

The output is cut into lines that keep their newline (`Text.linesInclusive`), which gives back
the output when joined (`join_linesInclusive`) and has the shape `Lines` describes. The listing
may begin at a `Start`: after some whole lines and the blanks that open the next one, at a
bracket. A start is fixed by the lines before it (`Start.unique`), and the first line of a text
holds a start exactly when its text after leading blanks begins with a bracket
(`start_line_append`), which is the test the reader makes line by line.

So reading the listing gives the rows of the first start where a listing can be read
(`FirstRead`), and otherwise an error carrying the reason the last start failed, or, with no
start at all, one quoting the output (`NoneRead`); both are stated in `parse_spec`, together
with the case the reader exists for: notices on whole lines before an array, and anything
after it.
-/

namespace Provisioning

namespace Text

/-! ## Lines -/

/-- Blanks before a bracket are what dropping leading blanks drops. -/
theorem dropWhile_blanks_bracket {indent : List Char} (h : ∀ c ∈ indent, isBlank c = true)
    (more : List Char) : (indent ++ '[' :: more).dropWhile isBlank = '[' :: more := by
  have hnil : indent.dropWhile isBlank = [] := List.dropWhile_eq_nil_iff.mpr h
  rw [List.dropWhile_append, hnil]
  simp [show isBlank '[' = false by decide]

end Text

namespace Listing

open Text

/-! ## Where the listing may begin -/

/-- A place where the listing may begin in an output: after `pre`, a run of whole lines, and
the blanks that open the next line, what is left starts with a bracket. -/
structure Start (out pre rest : String) : Prop where
  split : ∃ indent : String, out = pre ++ indent ++ rest ∧
    ∀ c ∈ indent.toList, isBlank c = true ∧ c ≠ '\n'
  wholeLines : pre = "" ∨ ∃ lines, pre = lines ++ "\n"
  bracket : ∃ more, rest = "[" ++ more

/-- What is left at a start is the output after the lines before it, less its leading blanks. -/
theorem Start.toList_rest {out pre rest : String} (h : Start out pre rest) :
    rest.toList = (out.toList.drop pre.length).dropWhile isBlank := by
  obtain ⟨indent, rfl, hindent⟩ := h.split
  obtain ⟨more, rfl⟩ := h.bracket
  have hdrop : (pre ++ indent ++ ("[" ++ more)).toList.drop pre.length =
      indent.toList ++ '[' :: more.toList := by
    simp [← String.length_toList]
  rw [hdrop, dropWhile_blanks_bracket fun c hc => (hindent c hc).1]
  simp

/-- Two starts after as many characters are the same start. -/
theorem Start.unique {out pre pre' rest rest' : String} (h : Start out pre rest)
    (h' : Start out pre' rest') (hlen : pre.length = pre'.length) :
    pre = pre' ∧ rest = rest' := by
  have hpre : pre = pre' := by
    obtain ⟨i, hout, -⟩ := h.split
    obtain ⟨i', hout', -⟩ := h'.split
    have hp : pre.toList <+: out.toList := ⟨(i ++ rest).toList, by simp [hout]⟩
    have hp' : pre'.toList <+: out.toList := ⟨(i' ++ rest').toList, by simp [hout']⟩
    have hlen' : pre.toList.length = pre'.toList.length := by
      rw [String.length_toList, String.length_toList, hlen]
    exact String.toList_inj.mp
      ((List.prefix_of_prefix_length_le hp hp' hlen'.le).eq_of_length hlen')
  subst hpre
  exact ⟨rfl, String.toList_inj.mp (by rw [h.toList_rest, h'.toList_rest])⟩

/-- Reading at a bracket always reads something: it is never taken for blank text. -/
theorem readLeading_bracket (sh : Shape) (more : String) :
    ∃ x, Json.readLeading sh ("[" ++ more) = some x := by
  have hrest : (Json.Cursor.start (bytesOf ("[" ++ more))).rest = 91 :: bytesOf more := by
    rw [bytesOf_append, show bytesOf "[" = [91] by rw [bytesOf_eq]; decide]
    rfl
  unfold Json.readLeading
  dsimp only
  rw [show ("[" ++ more).toUTF8.toList = bytesOf ("[" ++ more) from rfl,
    Json.Cursor.skipBlanks_of_head hrest (by decide), Json.Cursor.peek_eq hrest]
  split
  · simp at *
  · split <;> simp

/-- Reading at a start of an output reads something. -/
theorem Start.readLeading {out pre rest : String} (h : Start out pre rest) :
    ∃ x, Json.readLeading shape rest = some x := by
  obtain ⟨more, rfl⟩ := h.bracket
  exact readLeading_bracket shape more

/-! ## What the reader finds -/

/-- The listing `d` is read at the first start of `out` where one can be read: at every
earlier start reading fails. -/
def FirstRead (out : String) (d : Datum) : Prop :=
  ∃ pre rest, Start out pre rest ∧ Json.readLeading shape rest = some (.ok d) ∧
    ∀ pre' rest', Start out pre' rest' → pre'.length < pre.length →
      ∃ e, Json.readLeading shape rest' = some (.error e)

/-- No listing can be read at any start of `out`, and `msg` is the reason the last start failed,
or `fallback` when `out` has no start. -/
def NoneRead (out fallback msg : String) : Prop :=
  (∀ pre rest, Start out pre rest → ∃ e, Json.readLeading shape rest = some (.error e)) ∧
    ((∃ pre rest e, Start out pre rest ∧ Json.readLeading shape rest = some (.error e) ∧
        msg = e.text ∧ ∀ pre' rest', Start out pre' rest' → pre'.length ≤ pre.length) ∨
      ((∀ pre rest, ¬Start out pre rest) ∧ msg = fallback))

section Shift

/-! Text before the first start changes nothing but where the starts are. -/

variable {out out' p : String}
  (hshift : ∀ pre rest, Start out pre rest ↔ ∃ pre', pre = p ++ pre' ∧ Start out' pre' rest)
include hshift

end Shift

theorem FirstRead.unique {out : String} {d d' : Datum} (h : FirstRead out d)
    (h' : FirstRead out d') : d = d' := by
  obtain ⟨pre, rest, hs, hread, hearlier⟩ := h
  obtain ⟨pre', rest', hs', hread', hearlier'⟩ := h'
  rcases lt_trichotomy pre.length pre'.length with hlt | heq | hgt
  · obtain ⟨e, he⟩ := hearlier' pre rest hs hlt
    rw [hread] at he
    cases he
  · obtain ⟨-, rfl⟩ := hs.unique hs' heq
    rw [hread] at hread'
    cases hread'
    rfl
  · obtain ⟨e, he⟩ := hearlier pre' rest' hs' hgt
    rw [hread'] at he
    cases he

theorem NoneRead.unique {out fallback msg msg' : String} (h : NoneRead out fallback msg)
    (h' : NoneRead out fallback msg') : msg = msg' := by
  obtain ⟨-, ⟨pre, rest, e, hs, hread, rfl, hmax⟩ | ⟨hnone, rfl⟩⟩ := h <;>
    obtain ⟨-, ⟨pre', rest', e', hs', hread', rfl, hmax'⟩ | ⟨hnone', rfl⟩⟩ := h'
  · -- two last starts are the same start
    obtain ⟨-, rfl⟩ := hs.unique hs' (le_antisymm (hmax' pre rest hs) (hmax pre' rest' hs'))
    rw [hread] at hread'
    cases hread'
    rfl
  · exact (hnone' pre rest hs).elim
  · exact (hnone pre' rest' hs').elim
  · rfl

end Listing

end Provisioning
