import Exemplar.Text.Emoji
import Exemplar.Text.Literal
import Exemplar.Text.Style
import Exemplar.Text.Width
/-!
# Markup

Text for the screen with tags in brackets that set its style. A backslash before a tag makes it
plain text; escaping puts such backslashes in, so that a text is shown as it is. What is shown in
the end has no tags, emoji in place of their codes, no control characters, and blanks in place of
tabs.
-/
namespace Exemplar.Text.Markup

def opensTag (c : Char) : Bool := ('a' ≤ c && c ≤ 'z') || c = '#' || c = '/' || c = '@'

/-- The characters that do not end a tag. -/
def inTag (c : Char) : Bool := c ≠ '[' && c ≠ ']'

/-- The content of a tag and what stands behind it, in a text that begins behind a bracket. -/
def tag? : List Char → Option (List Char × List Char)
  | [] => none
  | c :: rest =>
    if opensTag c then
      match rest.dropWhile inTag with
      | ']' :: after => some (c :: rest.takeWhile inTag, after)
      | _ => none
    else none

theorem length_dropWhile_le (p : Char → Bool) (s : List Char) :
    (s.dropWhile p).length ≤ s.length :=
  (List.dropWhile_suffix p).length_le

/-- A tag takes something away. -/
theorem tag?_length {s content after : List Char} (h : tag? s = some (content, after)) :
    after.length < s.length := by
  cases s with
  | nil => simp [tag?] at h
  | cons c rest =>
    simp only [tag?] at h
    split at h
    · split at h
      · next heq =>
        have := length_dropWhile_le inTag rest
        rw [heq] at this
        simp only [Option.some.injEq, Prod.mk.injEq] at h
        obtain ⟨_, rfl⟩ := h
        simp only [List.length_cons] at this ⊢
        omega
      · simp at h
    · simp at h

def slashes (n : Nat) : List Char := List.replicate n '\\'

/-- Escape the tags of a text that follows so many backslashes. -/
def escapeTags (pending : Nat) (s : List Char) : List Char :=
  match s with
  | [] => slashes pending
  | '\\' :: rest => escapeTags (pending + 1) rest
  | '[' :: rest =>
    match h : tag? rest with
    | some (content, after) =>
      have := tag?_length h
      slashes (2 * pending + 1) ++ '[' :: content ++ ']' :: escapeTags 0 after
    | none => slashes pending ++ '[' :: escapeTags 0 rest
  | c :: rest => slashes pending ++ c :: escapeTags 0 rest
termination_by s.length

/-- Escape a text. A single backslash at the end is doubled, so that it does not change what comes
behind. -/
def escape (s : List Char) : List Char :=
  let escaped := escapeTags 0 s
  match escaped.reverse with
  | ['\\'] => escaped ++ ['\\']
  | '\\' :: c :: _ => if c = '\\' then escaped else escaped ++ ['\\']
  | _ => escaped

inductive Piece where
  | plain (s : List Char)
  | tag (content : List Char)
  deriving DecidableEq, Repr

/-- The pieces of a text that goes on from plain text, last character first, and so many backslashes
behind it. A backslash goes before a bracket that opens no tag, too. -/
def pieces (before : List Char) (pending : Nat) (s : List Char) : List Piece :=
  match s with
  | [] => [.plain (before.reverse ++ slashes pending)]
  | '\\' :: rest => pieces before (pending + 1) rest
  | '[' :: rest =>
    match h : tag? rest with
    | some (content, after) =>
      have := tag?_length h
      let shown : Piece :=
        if pending % 2 = 0 then .tag content else .plain ('[' :: content ++ [']'])
      .plain before.reverse :: .plain (slashes (pending / 2)) :: shown :: pieces [] 0 after
    | none => pieces ('[' :: slashes (pending - 1) ++ before) 0 rest
  | c :: rest => pieces (c :: slashes pending ++ before) 0 rest
termination_by s.length

/-- Why a text with markup cannot be shown: a tag ends what is not open or has parameters that
cannot be read, or a colour has a part that is no number. -/
inductive Fault where
  | unreadable
  | notNumeric
  deriving DecidableEq, Repr

/-- A tag that is open: the place where it begins to count, the standard form of its style, and its
parameters, if it has any. -/
structure OpenTag where
  start : Nat
  name : List Char
  parameters : Option (List Char)

/-- A stretch of what is shown, and the description of its style. -/
structure Span where
  start : Nat
  stop : Nat
  style : List Char

def parts (content : List Char) : List Char × Option (List Char) :=
  (content.takeWhile (· ≠ '='), (content.dropWhile (· ≠ '=')).tail?)

def styleOf (name : List Char) : Except Fault (List Char) :=
  (Style.standardForm name).mapError fun _ => .notNumeric

/-- The arguments among the parameters of a handler: what stands in brackets behind a name, or all
of them if they have another form. Without brackets there are no arguments. -/
def argumentsOf (parameters : List Char) : List Char :=
  let behind := parameters.dropWhile fun c => Literal.isWordChar c || c = '.'
  match behind with
  | [] => ['(', ')']
  | '(' :: _ =>
    if behind.getLast? = some ')' && !behind.contains '\n' then behind else parameters
  | _ => parameters

/-- Whether a tag is that of a handler, which is no style. -/
def OpenTag.isHandler (tag : OpenTag) : Bool := tag.name.head? = some '@'

/-- The stretch of a tag that ends at a place. The parameters of a style belong to its
description. -/
def OpenTag.span (tag : OpenTag) (stop : Nat) : Span :=
  ⟨tag.start, stop, tag.name ++ (tag.parameters.map fun ps => ' ' :: ps).getD []⟩

/-- End a tag. The parameters of a handler are literals. -/
def close (tag : OpenTag) (stop : Nat) : Except Fault (List Span) :=
  if tag.isHandler then
    match tag.parameters with
    | none => .ok []
    | some ps =>
      if ps.isEmpty || Literal.isLiteral (argumentsOf (trim ps)) then .ok []
      else .error .unreadable
  else .ok [tag.span stop]

/-- Control characters that are not shown: bell, backspace, vertical tab, form feed and carriage
return. -/
def isControl (c : Char) : Bool :=
  let n := c.toNat
  n = 7 || n = 8 || n = 11 || n = 12 || n = 13

/-- What is shown of a text without markup. -/
def visible (s : List Char) : List Char := s.filter fun c => !isControl c

def shownPlain (s : List Char) : List Char := visible (Emoji.replaceCodes s)

structure Styled where
  text : List Char
  spans : List Span

def Styled.prepend (t : Styled) (text : List Char) (spans : List Span) : Styled :=
  ⟨text ++ t.text, spans ++ t.spans⟩

/-- What is shown of pieces from a place on, with the tags that are open, innermost first. Tags that
are still open in the end reach up to it. -/
def styled : (place : Nat) → (opened : List OpenTag) → List Piece → Except Fault Styled
  | place, opened, [] => .ok ⟨[], opened.map fun tag => tag.span place⟩
  | place, opened, .plain s :: rest => do
    let text := shownPlain s
    return (← styled (place + text.length) opened rest).prepend text []
  | place, opened, .tag content :: rest =>
    match parts content with
    | ('/' :: name, _) =>
      if (trim name).isEmpty then
        match opened with
        | [] => .error .unreadable
        | tag :: outer => do
          let spans ← close tag place
          return (← styled place outer rest).prepend [] spans
      else do
        let style ← styleOf (trim name)
        match opened.find? fun tag => tag.name = style with
        | none => .error .unreadable
        | some tag =>
          let spans ← close tag place
          return (← styled place (opened.eraseP fun tag => tag.name = style) rest).prepend [] spans
    | (name, parameters) => do
      let style ← styleOf name
      styled place (⟨place, style, parameters⟩ :: opened) rest

def plain (s : String) : Except Fault String := do
  return String.ofList (← styled 0 [] (pieces [] 0 s.toList)).text

/-- Whether a stretch is drawn: in a text that has several lines or tabs it must have something on a
line. -/
def Span.isDrawn (span : Span) (text : List Char) : Bool :=
  !(text.contains '\n' || text.contains '\t') ||
    ((text.take span.stop).drop span.start).any (· ≠ '\n')

/-- What is printed of a text with markup. The styles that are drawn must be readable. -/
def printed (s : String) : Except Fault (List Char) := do
  let t ← styled 0 [] (pieces [] 0 s.toList)
  for span in t.spans do
    if span.isDrawn t.text then
      let _ ← styleOf span.style
  return t.text

/-- What is shown of a text without tags: only the codes of emoji are replaced. -/
def unmarked (s : String) : String := String.ofList (shownPlain s.toList)

def blanksFrom (place : Nat) : Nat := (8 - place % 8) % 8

/-- Replace tabs by blanks, at least one each, up to a place that is a multiple of eight. Places are
counted from the start of the line by the widths of the characters. -/
def expandTabs (place : Nat) : List Char → List Char
  | [] => []
  | '\t' :: rest =>
    let blanks := 1 + blanksFrom (place + 1)
    List.replicate blanks ' ' ++ expandTabs (place + blanks) rest
  | '\n' :: rest => '\n' :: expandTabs 0 rest
  | c :: rest => c :: expandTabs (place + width c) rest

def escaped (s : String) : String := String.ofList (escape s.toList)

end Exemplar.Text.Markup
