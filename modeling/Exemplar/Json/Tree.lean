import Exemplar.Json.Event
/-!
# Trees from events

Events build a tree with a stack of open containers. A list of events that stops early still
gives a tree: what was read before the stop, with every open container closed.
-/
namespace Exemplar.Json

/-- An open container with what it holds so far. A map remembers the key that was read last. -/
inductive Frame where
  | map (entries : List (Scalar × Json)) (key : Scalar)
  | list (items : List Json)

/-- A partly built document: the complete root, if there is one, and the open containers,
innermost first. -/
structure Partial where
  root : Json
  frames : List Frame

namespace Partial

def empty : Partial := ⟨.null, []⟩

def store (v : Json) : Frame → Frame
  | .map entries key => .map (Assoc.insert entries key v) key
  | .list items => .list (items ++ [v])

def attach (p : Partial) (v : Json) : Partial :=
  match p.frames with
  | [] => ⟨v, []⟩
  | frame :: outer => ⟨p.root, store v frame :: outer⟩

def close : Frame → Json
  | .map entries _ => .map entries
  | .list items => .list items

def pop (p : Partial) : Partial :=
  match p.frames with
  | frame :: outer => attach ⟨p.root, outer⟩ (close frame)
  | [] => p

def push (p : Partial) : Event → Partial
  | .startMap => ⟨p.root, .map [] .null :: p.frames⟩
  | .startList => ⟨p.root, .list [] :: p.frames⟩
  | .key name =>
    match p.frames with
    | .map entries _ :: outer => ⟨p.root, .map entries (.str name) :: outer⟩
    | _ => p
  | .scalar s => p.attach (.scalar s)
  | .endMap => p.pop
  | .endList => p.pop

/-- Close the open containers, innermost first, each into the next. -/
def collapse (root : Json) : List Frame → Json
  | [] => root
  | [frame] => close frame
  | inner :: outer :: rest => collapse root (store (close inner) outer :: rest)
termination_by frames => frames.length

def tree (p : Partial) : Json := collapse p.root p.frames

end Partial

def ofEvents (events : List Event) : Json := (events.foldl Partial.push .empty).tree

end Exemplar.Json
