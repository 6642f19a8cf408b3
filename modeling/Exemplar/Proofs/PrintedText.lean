import Exemplar.Json.Printer
import Exemplar.Proofs.NumberText

/-! Trees are written in the grammar: in every layout of blanks, the text of a tree is one of its
texts. -/
namespace Exemplar.Json
open Text

theorem unitText_control {n : Nat} (hn : n < 0x20) : UnitText (hexDigits 4 n) n := by
  have hall : ∀ n < 0x20, (hexDigits 4 n).length = 4 ∧ hexNumber? 0 (hexDigits 4 n) = some n := by
    decide
  exact ⟨(hall n hn).1, (hall n hn).2⟩

theorem spells_escapeChar (c : Char) {cs s : List Char} (rest : Spells cs s) :
    Spells (escapeChar c ++ cs) (c :: s) := by
  unfold escapeChar
  split_ifs with h1 h2 h3 h4 h5 h6 h7 h8
  · subst h1
    exact .escape (by decide) rest
  · subst h2
    exact .escape (by decide) rest
  · subst h3
    exact .escape (by decide) rest
  · subst h4
    exact .escape (by decide) rest
  · subst h5
    exact .escape (by decide) rest
  · obtain rfl : c = '\x08' := Char.toNat_inj.mp h6
    exact .escape (by decide) rest
  · obtain rfl : c = '\x0c' := Char.toNat_inj.mp h7
    exact .escape (by decide) rest
  · exact .unit (unitText_control h8) rest
  · exact .plain h1 h2 (by omega) rest

theorem spells_escaped (s : List Char) : Spells (s.flatMap escapeChar) s := by
  induction s with
  | nil => exact .nil
  | cons c s ih => exact spells_escapeChar c ih

theorem spelled_scalar {s : Scalar} (hs : Writable s) :
    Spelled (.value (.scalar s)) (writeScalar s) := by
  cases s with
  | null => exact .null
  | bool b =>
    cases b with
    | true => exact .true
    | false => exact .false
  | int i => exact spelled_int i
  | float x =>
    obtain ⟨y, rfl⟩ := hs
    exact spelled_double y
  | str t =>
    have htext := Spelled.string (spells_escaped t.toList)
    rwa [String.ofList_toList] at htext

def SpacedOut : Layout → Prop
  | .compact => True
  | .lines step => ∀ c ∈ step, c = ' '

section

variable {layout : Layout}

theorem mem_newline (hl : SpacedOut layout) {level : Nat} {c : Char}
    (hc : c ∈ layout.newline level) : c = ' ' ∨ c = '\n' := by
  cases layout with
  | compact => simp [Layout.newline] at hc
  | lines step =>
    rcases List.mem_cons.mp hc with rfl | hc
    · exact .inr rfl
    · obtain ⟨line, hline, hmem⟩ := List.mem_flatten.mp hc
      rw [List.eq_of_mem_replicate hline] at hmem
      exact .inl (hl c hmem)

theorem blanks_newline (hl : SpacedOut layout) (level : Nat) : Blanks (layout.newline level) := by
  intro c hc
  rcases mem_newline hl hc with rfl | rfl <;> rfl

theorem blanks_nil : Blanks [] := nofun

/-- The text of a value, at every level of a layout. -/
def Printed (layout : Layout) (v : Json) : Prop :=
  ∀ level, Spelled (.value v) (writeAt layout level v)

theorem Printed.padded {v : Json} (h : Printed layout v) (level : Nat) {before behind : List Char}
    (hb : Blanks before) (hb' : Blanks behind) :
    Spelled (.padded v) (before ++ writeAt layout level v ++ behind) :=
  .padded hb (h level) hb'

theorem spelled_items (hl : SpacedOut layout) (level : Nat) {xs : List Json} {x : Json}
    (hx : Printed layout x) (hxs : ∀ y ∈ xs, Printed layout y) {before behind : List Char}
    (hb : Blanks before) (hb' : Blanks behind) :
    Spelled (.items (x :: xs))
      (before ++ writeAt layout level x ++ writeItems layout level xs ++ behind) := by
  induction xs generalizing x before with
  | nil =>
    rw [writeItems, List.append_nil]
    exact .item (hx.padded level hb hb')
  | cons y ys ih =>
    have hfirst := hx.padded level hb blanks_nil
    have hrest := ih (hxs y (by simp)) (fun z hz => hxs z (by simp [hz])) (blanks_newline hl level)
    simpa [writeItems] using Spelled.items hfirst hrest

theorem spelled_entry {k : Scalar} (hk : ∃ s, k = .str s) (level : Nat) {v : Json}
    (hv : Printed layout v) {before behind : List Char} (hb : Blanks before)
    (hb' : Blanks behind) :
    ∃ name, k = .str name ∧ Spelled (.entry name v)
      (before ++ writeKey k ++ layout.colon ++ writeAt layout level v ++ behind) := by
  obtain ⟨name, rfl⟩ := hk
  have hcolon : ∃ bs, Blanks bs ∧ layout.colon = ':' :: bs := by
    cases layout with
    | compact => exact ⟨[], nofun, rfl⟩
    | lines step => exact ⟨[' '], by simp [Blanks, isSpace], rfl⟩
  obtain ⟨bs, hbs, hcolon⟩ := hcolon
  have hentry := Spelled.entry hb (spells_escaped name.toList) blanks_nil
    (hv.padded level hbs hb')
  rw [String.ofList_toList] at hentry
  refine ⟨name, rfl, ?_⟩
  rw [hcolon]
  simpa [writeKey, writeString, writePlain] using hentry

theorem spelled_entries (hl : SpacedOut layout) (level : Nat) {xs : List (Scalar × Json)} {k : Scalar}
    {x : Json} (hnames : ∀ e ∈ (k, x) :: xs, ∃ s, e.1 = .str s)
    (hparts : ∀ e ∈ (k, x) :: xs, Printed layout e.2) {before behind : List Char}
    (hb : Blanks before) (hb' : Blanks behind) :
    Spelled (.entries ((k, x) :: xs)) (before ++ writeKey k ++ layout.colon ++
      writeAt layout level x ++ writeEntries layout level xs ++ behind) := by
  have hk := hnames (k, x) (by simp)
  have hx := hparts (k, x) (by simp)
  induction xs generalizing k x before with
  | nil =>
    obtain ⟨name, rfl, hentry⟩ := spelled_entry hk level hx hb hb'
    rw [writeEntries, List.append_nil]
    exact .lastEntry hentry
  | cons e ys ih =>
    obtain ⟨k', y⟩ := e
    obtain ⟨name, rfl, hentry⟩ := spelled_entry hk level hx hb blanks_nil
    have hrest := ih (fun e he => hnames e (by simp [List.mem_cons.mp he]))
      (fun e he => hparts e (by simp [List.mem_cons.mp he])) (blanks_newline hl level)
      (hnames (k', y) (by simp)) (hparts (k', y) (by simp))
    simpa [writeEntries] using Spelled.entries hentry hrest

/-- Every tree is written as one of its texts. -/
theorem printed (hl : SpacedOut layout) {v : Json} (hv : IsDocument Writable v) :
    Printed layout v := by
  induction hv with
  | scalar hs => exact fun _ => spelled_scalar hs
  | @list items _ ih =>
    intro level
    cases items with
    | nil => exact .noItems blanks_nil
    | cons x xs =>
      have hxs : ∀ y ∈ xs, Printed layout y := fun y hy => ih y (List.mem_cons_of_mem x hy)
      have hitems := spelled_items hl (level + 1) (ih x (by simp)) hxs
        (blanks_newline hl (level + 1)) (blanks_newline hl level)
      simpa [writeAt] using Spelled.list hitems
  | @map entries names _ _ ih =>
    intro level
    cases entries with
    | nil => exact .noEntries blanks_nil
    | cons e xs =>
      obtain ⟨k, x⟩ := e
      have hentries := spelled_entries hl (level + 1) names ih (blanks_newline hl (level + 1))
        (blanks_newline hl level)
      simpa [writeAt] using Spelled.map hentries

theorem spelled_textIn (hl : SpacedOut layout) {v : Json} (hv : IsDocument Writable v) :
    Spelled (.padded v) (v.textIn layout).toList := by
  have htext := (printed hl hv).padded 0 blanks_nil blanks_nil
  rw [textIn, String.toList_ofList]
  rwa [List.nil_append, List.append_nil] at htext

end

end Exemplar.Json
