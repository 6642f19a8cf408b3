import Exemplar.Text.Markup
/-!
# Consoles

What texts with markup are printed on. Announcements are printed in a style, and a text in it without
brackets and backslashes is plain text, so that nothing in it can break the announcement.
-/
namespace Exemplar.Text

namespace Markup

/-- What can neither open a tag nor escape one. -/
def Unmarked (s : List Char) : Prop := ∀ c ∈ s, c ≠ '[' ∧ c ≠ '\\'

instance (s : List Char) : Decidable (Unmarked s) :=
  decidable_of_iff (s.all fun c => c != '[' && c != '\\') (by simp [Unmarked])

def yellow : List Char := ['y', 'e', 'l', 'l', 'o', 'w']

theorem pieces_unmarked {s : List Char} (h : Unmarked s) (before rest : List Char) :
    pieces before 0 (s ++ rest) = pieces (s.reverse ++ before) 0 rest := by
  induction s generalizing before with
  | nil => rfl
  | cons c s ih =>
    obtain ⟨hbracket, hslash⟩ := h c List.mem_cons_self
    have hs : Unmarked s := fun c hc => h c (List.mem_cons_of_mem _ hc)
    rw [List.cons_append, pieces]
    · rw [ih hs, List.reverse_cons, List.append_assoc]
      rfl
    · exact hslash
    · exact hbracket

theorem pieces_tag {content after rest : List Char} (h : tag? rest = some (content, after))
    (before : List Char) : pieces before 0 ('[' :: rest) =
      .plain before.reverse :: .plain [] :: .tag content :: pieces [] 0 after := by
  rw [pieces]
  split
  · next content' after' h' =>
    rw [h] at h'
    cases h'
    rfl
  · next h' =>
    rw [h] at h'
    cases h'

theorem styled_plain (place : Nat) (opened : List OpenTag) (s : List Char) (rest : List Piece) :
    styled place opened (.plain s :: rest) =
      (styled (place + (shownPlain s).length) opened rest).map fun t =>
        t.prepend (shownPlain s) [] := by
  rw [styled]
  cases styled (place + (shownPlain s).length) opened rest <;> rfl

/-- A name of a style that is in standard form and that a tag can hold as it stands. -/
structure IsStyleName (name : List Char) : Prop where
  standard : styleOf name = .ok name
  opening : parts name = (name, none)
  closing : parts ('/' :: name) = ('/' :: name, none)
  trimmed : trim name = name
  first : ∃ c rest, name = c :: rest ∧ opensTag c = true ∧ c ≠ '/' ∧ c ≠ '@'
  inside : name.all inTag = true

variable {name : List Char}

theorem IsStyleName.tag (h : IsStyleName name) (after : List Char) :
    tag? (name ++ ']' :: after) = some (name, after) := by
  obtain ⟨c, rest, rfl, hopens, -⟩ := h.first
  have hrest : ∀ d ∈ rest, inTag d = true :=
    fun d hd => List.all_eq_true.mp h.inside d (List.mem_cons_of_mem _ hd)
  rw [List.cons_append, tag?, if_pos hopens, List.dropWhile_append_of_pos hrest,
    List.takeWhile_append_of_pos hrest]
  simp [inTag]

theorem IsStyleName.tag_close (h : IsStyleName name) (after : List Char) :
    tag? ('/' :: (name ++ ']' :: after)) = some ('/' :: name, after) := by
  have hname : ∀ d ∈ name, inTag d = true := List.all_eq_true.mp h.inside
  rw [tag?, if_pos (by decide), List.dropWhile_append_of_pos hname,
    List.takeWhile_append_of_pos hname]
  simp [inTag]

theorem styled_open (h : IsStyleName name) (place : Nat) (opened : List OpenTag)
    (rest : List Piece) :
    styled place opened (.tag name :: rest) =
      styled place (⟨place, name, none⟩ :: opened) rest := by
  obtain ⟨c, cs, rfl, -, hslash, -⟩ := h.first
  rw [styled.eq_def]
  simp only [h.opening]
  split
  · next heq => exact absurd (List.cons.inj (Prod.mk.inj heq).1).1 hslash
  · next heq =>
    cases heq
    rw [h.standard]
    rfl

theorem styled_close (h : IsStyleName name) (start place : Nat) (outer : List OpenTag)
    (rest : List Piece) :
    styled place (⟨start, name, none⟩ :: outer) (.tag ('/' :: name) :: rest) =
      (styled place outer rest).map fun t => t.prepend [] [⟨start, place, name⟩] := by
  obtain ⟨c, cs, hname, -, -, hhandler⟩ := h.first
  have hnamed : ¬name.isEmpty = true := by simp [hname]
  let opened : List OpenTag := ⟨start, name, none⟩ :: outer
  have hfind : opened.find? (fun tag => tag.name = name) = some ⟨start, name, none⟩ := by
    simp [opened]
  have herase : opened.eraseP (fun tag => tag.name = name) = outer := by
    simp [opened]
  have hclose : close ⟨start, name, none⟩ place = .ok [⟨start, place, name⟩] := by
    rw [close, if_neg (by simpa [OpenTag.isHandler, hname] using hhandler)]
    simp [OpenTag.span]
  rw [styled.eq_def]
  simp only [h.closing, h.trimmed, if_neg hnamed, h.standard]
  simp only [bind, Except.bind]
  rw [hfind]
  simp only [hclose]
  rw [herase]
  cases styled place outer rest <;> rfl

theorem printed_of_styled {s : String} {t : Styled}
    (ht : styled 0 [] (pieces [] 0 s.toList) = .ok t)
    (hstyles : ∀ span ∈ t.spans, ∃ style, styleOf span.style = .ok style) :
    printed s = .ok t.text := by
  have hloop : ∀ spans : List Span, (∀ span ∈ spans, ∃ style, styleOf span.style = .ok style) →
      (forIn spans PUnit.unit fun span _ => do
        if span.isDrawn t.text = true then
          let _ ← styleOf span.style
          pure (ForInStep.yield PUnit.unit)
        else pure (ForInStep.yield PUnit.unit) : Except Fault PUnit) = .ok PUnit.unit := by
    intro spans hspans
    induction spans with
    | nil => rfl
    | cons span spans ih =>
      obtain ⟨⟨style, hstyle⟩, hspans⟩ := List.forall_mem_cons.mp hspans
      rw [List.forIn_cons, hstyle]
      split
      · exact ih hspans
      · exact ih hspans
  rw [printed, ht]
  exact congrArg (fun loop : Except Fault PUnit => loop.bind fun _ => .ok t.text)
    (hloop t.spans hstyles)

/-- A text without brackets and backslashes is printed in a style as it stands, but for the codes of
emoji and control characters. -/
theorem printed_inStyle (h : IsStyleName name) {s : List Char} (hs : Unmarked s) {text : String}
    (htext : text.toList = '[' :: (name ++ ']' :: (s ++ '[' :: '/' :: (name ++ [']'])))) :
    printed text = .ok (shownPlain s) := by
  have hpieces : pieces [] 0 text.toList =
      [.plain [], .plain [], .tag name, .plain s, .plain [], .tag ('/' :: name), .plain []] := by
    rw [htext, pieces_tag (h.tag _), pieces_unmarked hs, pieces_tag (h.tag_close _),
      List.append_nil, List.reverse_reverse, pieces]
    rfl
  have hnothing : shownPlain [] = [] := by
    rw [shownPlain, Emoji.replaceCodes]
    rfl
  have hstyled : styled 0 [] [.plain [], .plain [], .tag name, .plain s, .plain [],
      .tag ('/' :: name), .plain []] =
        .ok ⟨shownPlain s, [⟨0, (shownPlain s).length, name⟩]⟩ := by
    rw [styled_plain, styled_plain, styled_open h, styled_plain, styled_plain, styled_close h,
      styled_plain, hnothing, styled]
    simp [Except.map, Styled.prepend]
  refine printed_of_styled (hpieces ▸ hstyled) fun span hspan => ?_
  rw [List.mem_singleton.mp hspan]
  exact ⟨name, h.standard⟩

/-- Whether a word is in the table of colours or not, it is no colour with a bad number if it does not
look like a number of a colour. -/
theorem checkColour_name (word : List Char) (hhash : word.head? ≠ some '#')
    (hnumber : Style.inBrackets? "color(" word = none) (hparts : Style.inBrackets? "rgb(" word = none) :
    Style.checkColour word = .ok () ∨ Style.checkColour word = .error .unknown := by
  unfold Style.checkColour
  split
  · exact .inl rfl
  · right
    split
    · exact absurd rfl hhash
    · rw [hnumber, hparts]

theorem styleOf_yellow : styleOf yellow = .ok yellow := by
  have hwords : words yellow = [yellow] := by decide
  have hlowered : lowered yellow = yellow := by decide +kernel
  have htrim : trim yellow = yellow := by decide
  have hname : (trim yellow = Style.emptyName || yellow.isEmpty) = false := by decide +kernel
  have hofWords : Style.ofWords .empty [yellow] = (Style.checkColour yellow).bind fun _ =>
      .ok { Style.empty with colour := some yellow } := by
    rw [Style.ofWords, hlowered]
    · simp only [String.toList_ofList, Style.ofWords]
      rfl
    all_goals exact nofun
  rw [styleOf, Style.standardForm, hname, hwords, hofWords]
  rcases checkColour_name yellow (by decide) (by decide) (by decide) with h | h
  · rw [h]
    rfl
  · rw [h]
    simp only [Except.bind, hlowered, htrim]
    rfl

theorem isStyleName_yellow : IsStyleName yellow where
  standard := styleOf_yellow
  opening := by decide
  closing := by decide
  trimmed := by decide
  first := ⟨'y', _, rfl, by decide, by decide, by decide⟩
  inside := by decide

/-- A text without brackets and backslashes is printed in yellow as it stands, but for the codes of
emoji and control characters. -/
theorem printed_yellow {s : String} (h : Unmarked s.toList) :
    printed s!"[yellow]{s}[/yellow]" = .ok (shownPlain s.toList) := by
  refine printed_inStyle isStyleName_yellow h ?_
  change ("[yellow]" ++ s ++ "[/yellow]").toList = _
  have hopen : "[yellow]".toList = '[' :: (yellow ++ [']']) := by decide
  have hclose : "[/yellow]".toList = '[' :: ('/' :: yellow ++ [']']) := by decide
  rw [String.toList_append, String.toList_append, hopen, hclose]
  simp

def blue : List Char := ['b', 'l', 'u', 'e']

def boldBlue : List Char := ['b', 'o', 'l', 'd', ' '] ++ blue

theorem styleOf_boldBlue : styleOf boldBlue = .ok boldBlue := by
  have hwords : words boldBlue = [['b', 'o', 'l', 'd'], blue] := by decide
  have hbold : lowered ['b', 'o', 'l', 'd'] = ['b', 'o', 'l', 'd'] := by decide +kernel
  have hblue : lowered blue = blue := by decide +kernel
  have hlowered : lowered boldBlue = boldBlue := by decide +kernel
  have htrim : trim boldBlue = boldBlue := by decide
  have hname : (trim boldBlue = Style.emptyName || boldBlue.isEmpty) = false := by decide +kernel
  have hofWords : Style.ofWords .empty [['b', 'o', 'l', 'd'], blue] =
      (Style.checkColour blue).bind fun _ =>
        .ok { Style.empty.setAttribute "bold" true with colour := some blue } := by
    have hattribute : Style.attribute? ['b', 'o', 'l', 'd'] = some "bold" := by decide
    rw [Style.ofWords.eq_5, hbold]
    · simp only [String.toList_ofList, hattribute]
      rw [Style.ofWords, hblue]
      · simp only [String.toList_ofList, Style.ofWords]
        rfl
      all_goals exact nofun
    all_goals simp [hbold]
  rw [styleOf, Style.standardForm, hname, hwords, hofWords]
  rcases checkColour_name blue (by decide) (by decide) (by decide) with h | h
  · rw [h]
    rfl
  · rw [h]
    simp only [Except.bind, hlowered, htrim]
    rfl

theorem isStyleName_boldBlue : IsStyleName boldBlue where
  standard := styleOf_boldBlue
  opening := by decide
  closing := by decide
  trimmed := by decide
  first := ⟨'b', _, rfl, by decide, by decide, by decide⟩
  inside := by decide

end Markup

/-- What prints texts with markup, or tells why one cannot be printed. -/
structure Console where
  print : String → Except Markup.Fault Unit
  unmarked : ∀ s : String, Markup.Unmarked s.toList →
    print s!"[yellow]{s}[/yellow]" = .ok () ∧ print s!"[bold blue]{s}[/bold blue]" = .ok ()

namespace Markup

theorem printed_boldBlue {s : String} (h : Unmarked s.toList) :
    printed s!"[bold blue]{s}[/bold blue]" = .ok (shownPlain s.toList) := by
  refine printed_inStyle isStyleName_boldBlue h ?_
  change ("[bold blue]" ++ s ++ "[/bold blue]").toList = _
  have hopen : "[bold blue]".toList = '[' :: (boldBlue ++ [']']) := by decide
  have hclose : "[/bold blue]".toList = '[' :: ('/' :: boldBlue ++ [']']) := by decide
  rw [String.toList_append, String.toList_append, hopen, hclose]
  simp

/-- The console that shows what the tags say. -/
def console : Console where
  print s := (printed s).map fun _ => ()
  unmarked s hs := by
    rw [printed_yellow hs, printed_boldBlue hs]
    exact ⟨rfl, rfl⟩

end Markup
end Exemplar.Text
