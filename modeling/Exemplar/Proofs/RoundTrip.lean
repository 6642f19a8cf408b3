import Exemplar.Json.Document
import Exemplar.Proofs.PrintedText
import Exemplar.Proofs.Reading
import Exemplar.Proofs.Rebuilding

/-! Writing and reading back. With a reader that follows the grammar, a document written with a usable
indent is read as the same document, so a text that was written once does not change when it is read
and written again. -/
namespace Exemplar.Json
open Text

def indentOf (blanks : Option Int) : Indent := blanks.elim .none .blanks

/-- A number of blanks that is neither uncountable nor too large gives a layout of blanks. -/
theorem layout_blanks {n : Int} (hlow : -(2 ^ 63) ≤ n) (hhigh : n < 2 ^ 47) :
    (Indent.blanks n).layout = .ok (.lines (List.replicate n.toNat ' ')) := by
  have hcountable : ¬ (n < -(2 ^ 63) ∨ 2 ^ 63 ≤ n) := by omega
  have hsmall : ¬ 2 ^ 47 ≤ n := by omega
  rw [Indent.layout, if_neg hcountable, if_neg hsmall]

/-- Writing succeeds at every usable indent, with a layout of blanks. -/
theorem write_eq_textIn {blanks : Option Int} (hb : ∀ n ∈ blanks, -(2 ^ 63) ≤ n ∧ n < 2 ^ 47)
    (v : Json) : ∃ layout, SpacedOut layout ∧ v.write (indentOf blanks) = .ok (v.textIn layout) := by
  by_cases hs : v.isString = true
  · exact ⟨.compact, trivial, by rw [write, if_pos hs]⟩
  · cases blanks with
    | none => exact ⟨.compact, trivial, by rw [write, if_neg hs]; rfl⟩
    | some n =>
      obtain ⟨hlow, hhigh⟩ := hb n rfl
      refine ⟨.lines (List.replicate n.toNat ' '), fun c hc => List.eq_of_mem_replicate hc, ?_⟩
      rw [write, if_neg hs, indentOf, Option.elim_some, layout_blanks hlow hhigh]
      rfl

/-- Nothing but a string is written with an indent that cannot be used. -/
theorem write_unusable {v : Json} (hv : v.isString = false) {n : Int}
    (hn : n < -(2 ^ 63) ∨ 2 ^ 47 ≤ n) : ∃ f, v.write (indentOf (some n)) = .error f := by
  obtain ⟨f, hf⟩ : ∃ f, (Indent.blanks n).layout = .error f := by
    by_cases hcount : n < -(2 ^ 63) ∨ 2 ^ 63 ≤ n
    · exact ⟨.uncountable, by rw [Indent.layout, if_pos hcount]⟩
    · exact ⟨.tooLarge, by rw [Indent.layout, if_neg hcount, if_pos (by omega)]⟩
  refine ⟨f, ?_⟩
  rw [write, if_neg (by simp [hv]), indentOf, Option.elim_some, hf]
  rfl

section

variable [Reader] {p : Int → Prop}

def rewritten (indent : Indent) (source : String) : Option String := do
  let v ← (loadText source).toOption
  (v.write indent).toOption

/-- What is written in a layout of blanks is read back. -/
theorem parse_textIn (hreader : Reader.Follows (Admitted p)) {layout : Layout}
    (hl : SpacedOut layout) {v : Json} (hv : IsDocument (Admitted p) v) :
    parse (encodeString (v.textIn layout)) = ⟨v, []⟩ := by
  have hread := hreader v _ (spelled_textIn hl (hv.imp fun _ hs => hs.imp fun _ _ => trivial)) hv
  rw [encodeString, parse, hread]
  simp only [ofEvents_events hv, Option.map_none, Option.toList_none]

theorem loadText_textIn (hreader : Reader.Follows (Admitted p)) {layout : Layout}
    (hl : SpacedOut layout) {v : Json} (hv : IsDocument (Admitted p) v) :
    loadText (v.textIn layout) = .ok v := by
  rw [loadText, load, parse_textIn hreader hl hv]
  rfl

/-- Documents survive writing and reading, and a text that holds one settles after it was written
once, unless the number of blanks that is asked for cannot be counted or is beyond the address
space. -/
theorem loadText_write (hreader : Reader.Follows (Within (-(2 ^ 63)) (2 ^ 63 - 1))) {v : Json}
    (hv : IsDocument (Within (-(2 ^ 63)) (2 ^ 63 - 1)) v) (blanks : Option Int) :
    (∃ text, v.write (indentOf blanks) = .ok text ∧ loadText text = .ok v ∧
      ∀ source, loadText source = .ok v →
        rewritten (indentOf blanks) source = some text ∧
          rewritten (indentOf blanks) text = some text) ∨
      (∃ n ∈ blanks, n < -(2 ^ 63) ∨ 2 ^ 47 ≤ n) ∧ v.isString = false ∧
        ∃ f, v.write (indentOf blanks) = .error f := by
  have hsurvives (layout : Layout) (hl : SpacedOut layout)
      (hwrite : v.write (indentOf blanks) = .ok (v.textIn layout)) :
      ∃ text, v.write (indentOf blanks) = .ok text ∧ loadText text = .ok v ∧
        ∀ source, loadText source = .ok v →
          rewritten (indentOf blanks) source = some text ∧
            rewritten (indentOf blanks) text = some text := by
    have hload : loadText (v.textIn layout) = .ok v :=
      loadText_textIn hreader hl hv
    have hagain {source : String} (h : loadText source = .ok v) :
        rewritten (indentOf blanks) source = some (v.textIn layout) := by
      simp [rewritten, h, hwrite, Except.toOption]
    exact ⟨_, hwrite, hload, fun source h => ⟨hagain h, hagain hload⟩⟩
  by_cases hb : ∀ n ∈ blanks, -(2 ^ 63) ≤ n ∧ n < 2 ^ 47
  · obtain ⟨layout, hl, hwrite⟩ := write_eq_textIn hb v
    exact .inl (hsurvives layout hl hwrite)
  · by_cases hs : v.isString = true
    · exact .inl (hsurvives .compact trivial (by rw [write, if_pos hs]))
    · rw [Bool.not_eq_true] at hs
      push Not at hb
      obtain ⟨n, hn, hrange⟩ := hb
      have hout : n < -(2 ^ 63) ∨ 2 ^ 47 ≤ n := by omega
      obtain rfl : blanks = some n := hn
      exact .inr ⟨⟨n, rfl, hout⟩, hs, write_unusable hs hout⟩

end

def sampleDocument : Json :=
  .map [(.str "a\"\n", .list [.scalar (.int (-(2 ^ 63 - 1))), .map [], .list [], null]),
    (.str "", .scalar (.float (.finite ⟨true, 1, 0, by decide⟩))), (.str "é", .scalar (.bool true))]

theorem loadText_write_sample :
    @Reader.Follows (.ofLimit none) (Within (-(2 ^ 63)) (2 ^ 63 - 1)) ∧
      IsDocument (Within (-(2 ^ 63)) (2 ^ 63 - 1)) sampleDocument ∧
        ∃ text, sampleDocument.write (indentOf (some 2)) = .ok text ∧
          @loadText (.ofLimit none) text = .ok sampleDocument := by
  have hreader : @Reader.Follows (.ofLimit none) (Within (-(2 ^ 63)) (2 ^ 63 - 1)) := by
    intro v text htext hv
    exact follows_ofLimit none v text htext (hv.imp fun _ hs => hs.imp fun _ _ => rfl)
  have hv : IsDocument (Within (-(2 ^ 63)) (2 ^ 63 - 1)) sampleDocument := by decide
  rcases @loadText_write (.ofLimit none) hreader _ hv (some 2) with
    ⟨text, hwrite, hload, -⟩ | ⟨⟨n, hn, hrange⟩, -⟩
  · exact ⟨hreader, hv, text, hwrite, hload⟩
  · obtain rfl := Option.some.inj hn
    exact absurd hrange (by decide)

/-- A number of blanks that cannot be counted or kept is no indent, so an empty list does not survive
every indent. -/
theorem not_loadText_write :
    (Json.list []).write (indentOf (some (2 ^ 63))) = .error .uncountable ∧
      (Json.list []).write (indentOf (some (2 ^ 47))) = .error .tooLarge ∧
        ¬ ∀ blanks, ∃ text, (Json.list []).write (indentOf blanks) = .ok text ∧
          loadText text = .ok (.list []) := by
  have hlost : (Json.list []).write (indentOf (some (2 ^ 63))) = .error .uncountable := by
    decide
  refine ⟨hlost, by decide, fun h => ?_⟩
  obtain ⟨text, hwrite, -⟩ := h (some (2 ^ 63))
  rw [hlost] at hwrite
  cases hwrite

end Exemplar.Json
