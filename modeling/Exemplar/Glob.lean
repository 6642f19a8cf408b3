/-!
# Patterns of names

In a pattern a star stands for any characters, a question mark for any one, and a set in square
brackets for one character that is in it, or that is not in it if the set begins with an
exclamation mark. All other characters stand for themselves.
-/
namespace Exemplar

inductive GlobPart where
  | char (c : Char)
  | any
  | anyRun
  | oneOf (inside : Bool) (ranges : List (Char × Char))
  deriving DecidableEq, Repr

abbrev Glob := List GlobPart

namespace Glob

/-- The ranges of a set: a hyphen between two characters joins them. Ranges that would go down are
empty. -/
def ranges : List Char → List (Char × Char)
  | a :: '-' :: b :: rest => if a ≤ b then (a, b) :: ranges rest else ranges rest
  | a :: rest => (a, a) :: ranges rest
  | [] => []

/-- The characters of a set and the text behind it, in a text that begins behind the bracket. A
closing bracket at the start of a set belongs to it. -/
def set? : List Char → Option (List Char × List Char)
  | [] => none
  | c :: rest =>
    match rest.dropWhile (· ≠ ']') with
    | ']' :: after => some (c :: rest.takeWhile (· ≠ ']'), after)
    | _ => none

def ofSet (inside : Bool) (content : List Char) : GlobPart := .oneOf inside (ranges content)

/-- The set at the start of a text behind its bracket. A text without the closing bracket has
none. -/
def setPart? : List Char → Option (GlobPart × List Char)
  | '!' :: rest => (set? rest).map fun (content, after) => (ofSet false content, after)
  | rest => (set? rest).map fun (content, after) => (ofSet true content, after)

theorem set?_length {s content after : List Char} (h : set? s = some (content, after)) :
    after.length ≤ s.length := by
  cases s with
  | nil => simp [set?] at h
  | cons c rest =>
    simp only [set?] at h
    split at h
    · next heq =>
      have := (List.dropWhile_suffix (l := rest) (· ≠ ']')).length_le
      rw [heq] at this
      simp only [Option.some.injEq, Prod.mk.injEq] at h
      obtain ⟨_, rfl⟩ := h
      simp only [List.length_cons] at this ⊢
      omega
    · simp at h

theorem setPart?_length {s after : List Char} {part : GlobPart}
    (h : setPart? s = some (part, after)) : after.length ≤ s.length := by
  unfold setPart? at h
  split at h
  · obtain ⟨⟨content, after'⟩, h', heq⟩ := Option.map_eq_some_iff.1 h
    simp only [Prod.mk.injEq] at heq
    obtain ⟨_, rfl⟩ := heq
    exact Nat.le_succ_of_le (set?_length h')
  · obtain ⟨⟨content, after'⟩, h', heq⟩ := Option.map_eq_some_iff.1 h
    simp only [Prod.mk.injEq] at heq
    obtain ⟨_, rfl⟩ := heq
    exact set?_length h'

def ofText (s : List Char) : Glob :=
  match s with
  | [] => []
  | '*' :: rest => .anyRun :: ofText rest
  | '?' :: rest => .any :: ofText rest
  | '[' :: rest =>
    match h : setPart? rest with
    | some (part, after) =>
      have := setPart?_length h
      part :: ofText after
    | none => .char '[' :: ofText rest
  | c :: rest => .char c :: ofText rest
termination_by s.length

def fits : GlobPart → Char → Bool
  | .char d, c => c == d
  | .any, _ => true
  | .anyRun, _ => false
  | .oneOf inside ranges, c => (ranges.any fun (a, b) => a ≤ c && c ≤ b) == inside

def covers : Glob → List Char → Bool
  | [], s => s.isEmpty
  | .anyRun :: rest, [] => covers rest []
  | .anyRun :: rest, c :: s => covers rest (c :: s) || covers (.anyRun :: rest) s
  | _ :: _, [] => false
  | part :: rest, c :: s => fits part c && covers rest s
termination_by g s => (g.length, s.length)

end Glob

/-- A step of a pattern of ways: through any folders, to a name of a form, or to one name. -/
inductive GlobStep where
  | anywhere
  | named (g : Glob)
  | exactly (name : String)
  deriving DecidableEq, Repr

namespace GlobStep

def hasDoubleStar : List Char → Bool
  | '*' :: '*' :: _ => true
  | _ :: rest => hasDoubleStar rest
  | [] => false

/-- The step that a text writes. Two stars stand for any folders when they stand alone, and are
refused elsewhere. -/
def ofText? (name : String) : Option GlobStep :=
  let s := name.toList
  if name = "**" then some .anywhere
  else if hasDoubleStar s then none
  else if s.any fun c => c = '*' || c = '?' || c = '[' then some (.named (.ofText s))
  else some (.exactly name)

end GlobStep
end Exemplar
