import Exemplar.Proofs.BoundContent
import Exemplar.Proofs.RoundTrip

/-! What the layout of a written tree adds. Deleting the blanks that stand outside of string literals
takes every layout of blanks back to the text in one line, which has no such blanks. -/
namespace Exemplar.Json

/-- A text without the blanks outside of its string literals. In a literal, a backslash takes the
character behind it along, so that a quote there does not end it. -/
def bare : (inside : Bool) → List Char → List Char
  | _, [] => []
  | false, '"' :: rest => '"' :: bare true rest
  | false, c :: rest => if Text.isBlank c then bare false rest else c :: bare false rest
  | true, '\\' :: c :: rest => '\\' :: c :: bare true rest
  | true, '"' :: rest => '"' :: bare false rest
  | true, c :: rest => c :: bare true rest

def withoutBlanks (text : String) : String := String.ofList (bare false text.toList)

/-- Outside of string literals, a text leaves only `kept` behind. -/
def Leaves (text kept : List Char) : Prop :=
  ∀ rest, bare false (text ++ rest) = kept ++ bare false rest

def IsGraphic (c : Char) : Prop := c ≠ '"' ∧ Text.isBlank c = false

instance (c : Char) : Decidable (IsGraphic c) := inferInstanceAs (Decidable (_ ∧ _))

section

variable {text text' kept kept' s : List Char} {c : Char}

theorem bare_outside (hquote : c ≠ '"') (rest : List Char) :
    bare false (c :: rest) = if Text.isBlank c then bare false rest else c :: bare false rest := by
  rw [bare.eq_def]
  split <;> simp_all

theorem bare_inside (hquote : c ≠ '"') (hslash : c ≠ '\\') (rest : List Char) :
    bare true (c :: rest) = c :: bare true rest := by
  rw [bare.eq_def]
  split <;> simp_all

theorem leaves_nil : Leaves [] [] := fun _ => rfl

theorem Leaves.append (h : Leaves text kept) (h' : Leaves text' kept') :
    Leaves (text ++ text') (kept ++ kept') := by
  intro rest
  rw [List.append_assoc, h, h', List.append_assoc]

theorem leaves_blank (hc : Text.isBlank c = true) : Leaves [c] [] := by
  intro rest
  have hquote : c ≠ '"' := by
    rintro rfl
    exact absurd hc (by decide)
  rw [List.singleton_append, bare_outside hquote, if_pos hc, List.nil_append]

theorem leaves_blanks (hs : ∀ c ∈ s, Text.isBlank c = true) : Leaves s [] := by
  induction s with
  | nil => exact leaves_nil
  | cons c s ih =>
    have hrest := ih fun d hd => hs d (by simp [hd])
    exact (leaves_blank (hs c (by simp))).append hrest

theorem leaves_char (hc : IsGraphic c) : Leaves [c] [c] := by
  intro rest
  rw [List.singleton_append, bare_outside hc.1, hc.2, if_neg Bool.false_ne_true,
    List.singleton_append]

theorem leaves_graphic (hs : ∀ c ∈ s, IsGraphic c) : Leaves s s := by
  induction s with
  | nil => exact leaves_nil
  | cons c s ih =>
    have hrest := ih fun d hd => hs d (by simp [hd])
    exact (leaves_char (hs c (by simp))).append hrest

theorem leaves_graphic_word (hs : s.all (fun c => IsGraphic c) = true) : Leaves s s :=
  leaves_graphic fun c hc => of_decide_eq_true (List.all_eq_true.mp hs c hc)

/-- The digits of a control character neither end a literal nor escape anything. -/
theorem bare_hexDigits {n : Nat} (hn : n < 0x20) (rest : List Char) :
    bare true (Text.hexDigits 4 n ++ rest) = Text.hexDigits 4 n ++ bare true rest := by
  have hdigits : ∀ n < 0x20, (Text.hexDigits 4 n).all fun c => c ≠ '"' ∧ c ≠ '\\' := by decide
  have hrun : ∀ s : List Char, (∀ c ∈ s, c ≠ '"' ∧ c ≠ '\\') →
      bare true (s ++ rest) = s ++ bare true rest := by
    intro s hs
    induction s with
    | nil => rfl
    | cons c s ih =>
      obtain ⟨hquote, hslash⟩ := hs c (by simp)
      rw [List.cons_append, bare_inside hquote hslash, ih fun d hd => hs d (by simp [hd]),
        List.cons_append]
  exact hrun _ fun c hc => of_decide_eq_true (List.all_eq_true.mp (hdigits n hn) c hc)

theorem bare_escapeChar (c : Char) (rest : List Char) :
    bare true (escapeChar c ++ rest) = escapeChar c ++ bare true rest := by
  unfold escapeChar
  split_ifs with hquote hslash hn hr ht hb hf hcontrol
  -- a backslash and a letter, a backslash and digits, or the character itself
  iterate 7 rfl
  · exact congrArg (fun s => '\\' :: 'u' :: s) (bare_hexDigits hcontrol rest)
  · exact bare_inside hquote hslash rest

theorem leaves_writeString (s : List Char) : Leaves (writeString s) (writeString s) := by
  intro rest
  have hinside : bare true (s.flatMap escapeChar ++ '"' :: rest) =
      s.flatMap escapeChar ++ '"' :: bare false rest := by
    induction s with
    | nil => rfl
    | cons c s ih =>
      rw [List.flatMap_cons, List.append_assoc, bare_escapeChar, ih, List.append_assoc]
  have hwritten (tail : List Char) :
      writeString s ++ tail = '"' :: (s.flatMap escapeChar ++ '"' :: tail) := by
    simp [writeString]
  rw [hwritten, hwritten]
  exact congrArg ('"' :: ·) hinside

theorem isGraphic_digit (hc : Decimal.isDigit c = true) : IsGraphic c := by
  obtain ⟨hlow, hhigh⟩ := isDigit_bounds hc
  refine ⟨?_, ?_⟩
  · rintro rfl
    exact absurd hlow (by decide)
  · simp [Text.isBlank]
    omega

theorem isGraphic_exponentText {e : Int} (hc : c ∈ Double.exponentText e) : IsGraphic c := by
  have htext : Double.exponentText e = 'e' :: (if e < 0 then '-' else '+') :: exponentDigits e := rfl
  rw [htext] at hc
  rcases List.mem_cons.mp hc with rfl | hc
  · decide
  rcases List.mem_cons.mp hc with rfl | hc
  · split <;> decide
  · exact isGraphic_digit (isDigit_of_mem_exponentDigits hc)

theorem isGraphic_zero : IsGraphic '0' := by decide

theorem isGraphic_point : IsGraphic '.' := by decide

theorem isGraphic_zeros (k : Nat) : ∀ d ∈ List.replicate k '0', IsGraphic d := by
  intro d hd
  rw [List.eq_of_mem_replicate hd]
  exact isGraphic_zero

theorem isGraphic_placePoint {ds : List Char} (hds : ∀ d ∈ ds, IsGraphic d) (point : Int) :
    ∀ d ∈ Double.placePoint ds point, IsGraphic d := by
  unfold Double.placePoint
  split
  · refine List.forall_mem_append.mpr ⟨?_, fun d => isGraphic_exponentText⟩
    match ds, hds with
    | [], _ => exact List.forall_mem_singleton.mpr isGraphic_zero
    | [d], hds => exact hds
    | d :: e :: ds, hds =>
      obtain ⟨hd, hrest⟩ := List.forall_mem_cons.mp hds
      exact List.forall_mem_cons.mpr ⟨hd, List.forall_mem_cons.mpr ⟨isGraphic_point, hrest⟩⟩
  · split
    · split_ifs
      · exact List.forall_mem_cons.mpr ⟨isGraphic_zero, List.forall_mem_cons.mpr ⟨isGraphic_point, hds⟩⟩
      · have hend : ∀ d ∈ ['.', '0'], IsGraphic d :=
          List.forall_mem_cons.mpr ⟨isGraphic_point, List.forall_mem_singleton.mpr isGraphic_zero⟩
        exact List.forall_mem_append.mpr
          ⟨List.forall_mem_append.mpr ⟨hds, isGraphic_zeros _⟩, hend⟩
      · refine List.forall_mem_append.mpr ⟨fun d hd => hds d (List.mem_of_mem_take hd), ?_⟩
        exact List.forall_mem_cons.mpr ⟨isGraphic_point, fun d hd => hds d (List.mem_of_mem_drop hd)⟩
    · refine List.forall_mem_cons.mpr ⟨isGraphic_zero, List.forall_mem_cons.mpr ⟨isGraphic_point, ?_⟩⟩
      exact List.forall_mem_append.mpr ⟨isGraphic_zeros _, hds⟩

theorem isGraphic_trimZeros {n : Nat} (hn : n ≠ 0) (e : Int) :
    ∀ d ∈ (Double.trimZeros (Decimal.digits n) e).1, IsGraphic d := by
  obtain ⟨c, cs, k, htrim, -, hdigits, -⟩ := trimZeros_digits hn e
  rw [htrim]
  exact fun d hd => isGraphic_digit (hdigits d hd)

theorem isGraphic_finiteText {x : Dyadic} (hc : c ∈ Double.finiteText x) : IsGraphic c := by
  have hmagnitude : ∀ d ∈ Double.magnitudeText x, IsGraphic d := by
    intro d hd
    by_cases hx : x.significand = 0
    · rw [Double.magnitudeText, if_pos hx] at hd
      have hzero : ['0', '.', '0'].all fun c => IsGraphic c := by decide
      exact of_decide_eq_true (List.all_eq_true.mp hzero d hd)
    · rw [Double.magnitudeText, if_neg hx] at hd
      exact isGraphic_placePoint (isGraphic_trimZeros (Double.shortest_ne_zero hx) _) _ d hd
  rw [Double.finiteText] at hc
  split at hc
  · rcases List.mem_cons.mp hc with rfl | hc
    · decide
    · exact hmagnitude c hc
  · exact hmagnitude c hc

theorem isGraphic_ofInt {i : Int} (hc : c ∈ Decimal.ofInt i) : IsGraphic c := by
  match i, hc with
  | .ofNat n, hc => exact isGraphic_digit (Decimal.isDigit_of_mem_digits hc)
  | .negSucc n, hc =>
    rcases List.mem_cons.mp hc with rfl | hc
    · decide
    · exact isGraphic_digit (Decimal.isDigit_of_mem_digits hc)

theorem leaves_writeScalar (x : Scalar) : Leaves (writeScalar x) (writeScalar x) := by
  match x with
  | .str s => exact leaves_writeString s.toList
  | .null | .bool true | .bool false | .float .nan | .float (.infinity true)
  | .float (.infinity false) => exact leaves_graphic_word (by decide)
  | .int i => exact leaves_graphic fun c hc => isGraphic_ofInt hc
  | .float (.finite y) => exact leaves_graphic fun c hc => isGraphic_finiteText hc

end

section

variable {layout : Layout} (hl : SpacedOut layout)
include hl

theorem leaves_newline (level : Nat) : Leaves (layout.newline level) [] := by
  refine leaves_blanks fun c hc => ?_
  rcases mem_newline hl hc with rfl | rfl <;> decide

omit hl in
theorem leaves_colon (layout : Layout) : Leaves layout.colon [':'] := by
  cases layout with
  | compact => exact leaves_char (by decide)
  | lines step => exact (leaves_char (by decide)).append (leaves_blank (by decide))

mutual
/-- Whatever its layout and level, a value leaves behind what is written for it in one line. -/
theorem leaves_writeAt (level line : Nat) :
    (v : Json) → Leaves (writeAt layout level v) (writeAt .compact line v)
  | .scalar x => leaves_writeScalar x
  | .list [] => leaves_graphic_word (s := ['[', ']']) (by decide)
  | .map [] => leaves_graphic_word (s := ['\x7b', '\x7d']) (by decide)
  | .list (x :: xs) => by
    have hopen : Leaves ['['] ['['] := leaves_char (by decide)
    have hclose : Leaves [']'] [']'] := leaves_char (by decide)
    have hwhole := (((hopen.append (leaves_newline hl (level + 1))).append
      (leaves_writeAt (level + 1) (line + 1) x)).append
      (leaves_writeItems (level + 1) (line + 1) xs)).append
      ((leaves_newline hl level).append hclose)
    simpa [writeAt, Layout.newline] using hwhole
  | .map ((k, x) :: xs) => by
    have hopen : Leaves ['\x7b'] ['\x7b'] := leaves_char (by decide)
    have hclose : Leaves ['\x7d'] ['\x7d'] := leaves_char (by decide)
    have hkey : Leaves (writeKey k) (writeKey k) := leaves_writeString _
    have hwhole := (((((hopen.append (leaves_newline hl (level + 1))).append hkey).append
      (leaves_colon layout)).append (leaves_writeAt (level + 1) (line + 1) x)).append
      (leaves_writeEntries (level + 1) (line + 1) xs)).append
      ((leaves_newline hl level).append hclose)
    simpa [writeAt, Layout.newline, Layout.colon] using hwhole
theorem leaves_writeItems (level line : Nat) :
    (xs : List Json) → Leaves (writeItems layout level xs) (writeItems .compact line xs)
  | [] => leaves_nil
  | x :: xs => by
    have hcomma : Leaves [','] [','] := leaves_char (by decide)
    have hwhole := ((hcomma.append (leaves_newline hl level)).append
      (leaves_writeAt level line x)).append (leaves_writeItems level line xs)
    simpa [writeItems, Layout.newline] using hwhole
theorem leaves_writeEntries (level line : Nat) :
    (xs : List (Scalar × Json)) →
      Leaves (writeEntries layout level xs) (writeEntries .compact line xs)
  | [] => leaves_nil
  | (k, x) :: xs => by
    have hcomma : Leaves [','] [','] := leaves_char (by decide)
    have hkey : Leaves (writeKey k) (writeKey k) := leaves_writeString _
    have hwhole := ((((hcomma.append (leaves_newline hl level)).append hkey).append
      (leaves_colon layout)).append (leaves_writeAt level line x)).append
      (leaves_writeEntries level line xs)
    simpa [writeEntries, Layout.newline, Layout.colon] using hwhole
end

theorem withoutBlanks_textIn (v : Json) : withoutBlanks (v.textIn layout) = v.textIn .compact := by
  have hleaves := leaves_writeAt hl 0 0 v []
  rw [List.append_nil] at hleaves
  have hend : bare false [] = [] := rfl
  simp [withoutBlanks, textIn, hleaves, hend]

end

/-- A stored value, members of enums in it included, is written like the tree that it shows. -/
theorem run_write_tree {s : Store} {v : Value} {tree : Json} {indent : Indent} {layout : Layout}
    (h : (s.snapshot v).written = .ok tree) (hlayout : indent.layout = .ok layout) :
    (v.write indent).run s = (.ok (tree.textIn layout), s) := by
  unfold Value.write
  split
  · rw [Store.snapshot, Store.snapshotWithin, Snapshot.written] at h
    obtain rfl := Except.ok.inj h
    rfl
  · rw [hlayout]
    dsimp only
    rw [pure_bind, ModelM.run_bind_get, h]
    rfl

theorem write_tree (tree : Json) {indent : Indent} {layout : Layout}
    (hlayout : indent.layout = .ok layout) : tree.write indent = .ok (tree.textIn layout) := by
  rw [write]
  split
  · next hs =>
    obtain ⟨a, rfl⟩ := Json.eq_str_of_isString hs
    rfl
  · rw [hlayout]
    rfl

theorem run_write_string (s : Store) (a : String) (indent : Indent) :
    ((Value.scalar (.str a)).write indent).run s = (.ok (textIn .compact (.str a)), s) := rfl

/-- At every indent that can be used, the text of a tree is its text in one line and blanks outside of
string literals, and the text in one line has no blanks there. This holds as well of the stored values
that show the tree. A string is written the same way at every indent. -/
theorem withoutBlanks_write (tree : Json) {n : Int} (hlow : -(2 ^ 63) ≤ n)
    (hhigh : n < 2 ^ 47 ∨ tree.isString = true) :
    ∃ line pretty, tree.write .none = .ok line ∧ tree.write (.blanks n) = .ok pretty ∧
      withoutBlanks pretty = line ∧ withoutBlanks line = line ∧
      ∀ (s : Store) (v : Value), (s.snapshot v).written = .ok tree →
        (n < 2 ^ 47 ∨ ∃ a, v = .scalar (.str a)) →
        (v.write .none).run s = (.ok line, s) ∧ (v.write (.blanks n)).run s = (.ok pretty, s) := by
  have hcompact : SpacedOut .compact := trivial
  have hline := withoutBlanks_textIn hcompact tree
  by_cases hsmall : n < 2 ^ 47
  · have hlayout := layout_blanks hlow hsmall
    have hspaced : SpacedOut (.lines (List.replicate n.toNat ' ')) :=
      fun c hc => List.eq_of_mem_replicate hc
    exact ⟨_, _, write_tree tree rfl, write_tree tree hlayout, withoutBlanks_textIn hspaced tree, hline,
      fun s v hv _ => ⟨run_write_tree hv rfl, run_write_tree hv hlayout⟩⟩
  · obtain ⟨a, rfl⟩ := Json.eq_str_of_isString (hhigh.resolve_left hsmall)
    refine ⟨_, _, rfl, rfl, hline, hline, fun s v hv hstring => ?_⟩
    obtain ⟨b, rfl⟩ := hstring.resolve_left hsmall
    rw [Store.snapshot, Store.snapshotWithin, Snapshot.written] at hv
    cases hv
    exact ⟨run_write_string s a .none, run_write_string s a (.blanks n)⟩

/-- A map with a member of an enum, a key of blanks and an escaped quote, and empty containers. -/
theorem withoutBlanks_write_member :
    let s : Store := {
      nodes := #[
        { body := .map [(.str " \t", .node 1), (.str "b", .member ⟨"a.E", "X"⟩)], form := .linked },
        { body := .list [.node 2, .scalar (.int (-7))], form := .plain },
        { body := .list [], form := .linked }],
      enums := [("a.E", ⟨[("X", .scalar (.str " \" \\"))], none⟩)] }
    let tree : Json :=
      .map [(.str " \t", .list [.list [], .scalar (.int (-7))]), (.str "b", .str " \" \\")]
    (s.snapshot (.node 0)).written = .ok tree ∧
      ∃ line pretty, tree.write .none = .ok line ∧ tree.write (.blanks 2) = .ok pretty ∧
        withoutBlanks pretty = line ∧ withoutBlanks line = line ∧
        ((Value.node 0).write .none).run s = (.ok line, s) ∧
        ((Value.node 0).write (.blanks 2)).run s = (.ok pretty, s) := by
  intro s tree
  have hshown : (s.snapshot (.node 0)).written = .ok tree := rfl
  obtain ⟨line, pretty, hline, hpretty, hsame, hbare, hstored⟩ :=
    withoutBlanks_write tree (n := 2) (by decide) (Or.inl (by decide))
  obtain ⟨hrun, hrun'⟩ := hstored s (.node 0) hshown (Or.inl (by decide))
  exact ⟨hshown, line, pretty, hline, hpretty, hsame, hbare, hrun, hrun'⟩

/-- At a number of blanks that cannot be counted, an empty list has no text. -/
theorem not_withoutBlanks_write :
    ¬ ∀ (tree : Json) (n : Int), 0 ≤ n → ∃ line pretty, tree.write .none = .ok line ∧
      tree.write (.blanks n) = .ok pretty ∧ withoutBlanks pretty = line := by
  intro h
  obtain ⟨line, pretty, -, hwrite, -⟩ := h (.list []) (2 ^ 63) (by decide)
  have hindent : (Indent.blanks (2 ^ 63)).layout = .error .uncountable := by decide
  rw [write, if_neg (by decide), hindent] at hwrite
  cases hwrite

end Exemplar.Json
