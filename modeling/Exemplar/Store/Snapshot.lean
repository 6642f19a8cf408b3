import Exemplar.Name
import Exemplar.Store.Basic
/-!
# Snapshots

A snapshot is what a value looks like at one moment: the tree of its containers with the sort and
the type of each. A container that contains itself is cut off where it comes up again. Texts and
walks are functions of snapshots.
-/
namespace Exemplar

/-- What a snapshot says of a container besides its content. -/
structure Mark where
  form : Form
  type : Option NodeType
  deriving DecidableEq, Repr

inductive Snapshot where
  | scalar (s : Scalar)
  | nan (mark : Nat)
  | member (m : EnumMember) (literal : Snapshot)
  | descendents (mark : Nat) (root : Option Ref) (maps : List Snapshot)
  | pair (key : Scalar) (value : Value) (shown : Snapshot)
  | list (ref : Ref) (mark : Mark) (items : List Snapshot)
  | map (ref : Ref) (mark : Mark) (entries : List (Scalar × Snapshot))
  | cycle (ref : Ref) (mark : Mark) (isMap : Bool)

namespace Snapshot

def ref? : Snapshot → Option Ref
  | .list r _ _ => some r
  | .map r _ _ => some r
  | _ => none

def isContainer (s : Snapshot) : Bool := s.ref?.isSome

def isMap : Snapshot → Bool
  | .map _ _ _ => true
  | _ => false

/-- The containers directly inside a container, in order. -/
def children : Snapshot → List Snapshot
  | .list _ _ items => items.filter isContainer
  | .map _ _ entries => (entries.map Prod.snd).filter isContainer
  | _ => []

mutual
def weight : Snapshot → Nat
  | .list _ _ items => 1 + itemsWeight items
  | .map _ _ entries => 1 + entriesWeight entries
  | _ => 1
def itemsWeight : List Snapshot → Nat
  | [] => 0
  | x :: xs => weight x + itemsWeight xs
def entriesWeight : List (Scalar × Snapshot) → Nat
  | [] => 0
  | (_, x) :: xs => weight x + entriesWeight xs
end

theorem itemsWeight_append (xs ys : List Snapshot) :
    itemsWeight (xs ++ ys) = itemsWeight xs + itemsWeight ys := by
  induction xs with
  | nil => simp [itemsWeight]
  | cons x xs ih => simp [itemsWeight, ih, Nat.add_assoc]

theorem itemsWeight_filter_le (p : Snapshot → Bool) (xs : List Snapshot) :
    itemsWeight (xs.filter p) ≤ itemsWeight xs := by
  induction xs with
  | nil => simp
  | cons x xs ih =>
    simp only [List.filter_cons]
    split <;> simp only [itemsWeight] <;> omega

theorem entriesWeight_eq (es : List (Scalar × Snapshot)) :
    entriesWeight es = itemsWeight (es.map Prod.snd) := by
  induction es with
  | nil => simp [entriesWeight, itemsWeight]
  | cons e es ih => simp [entriesWeight, itemsWeight, ih]

/-- The containers inside a container are fewer parts than the container. -/
theorem itemsWeight_children_lt (s : Snapshot) : itemsWeight s.children < s.weight := by
  cases s <;> simp only [children, weight, itemsWeight, entriesWeight_eq]
  case list r m items => have := itemsWeight_filter_le isContainer items; omega
  case map r m es =>
    have := itemsWeight_filter_le isContainer (es.map Prod.snd); omega
  all_goals omega

/-- The maps among the pending containers and below them, depth first: every container is followed
by what is inside it, and only then by the pending ones. -/
def walk (pending : List Snapshot) : List Snapshot :=
  match pending with
  | [] => []
  | s :: rest =>
    let below := walk (s.children ++ rest)
    if s.isMap then s :: below else below
termination_by itemsWeight pending
decreasing_by
  have := itemsWeight_children_lt s
  simp only [itemsWeight_append, itemsWeight]
  omega

def mapsBelow (s : Snapshot) : List Snapshot := walk s.children

mutual
/-- The tree of maps and lists that a snapshot shows; none if it shows more than that. -/
def json? : Snapshot → Option Json
  | .scalar s => some (.scalar s)
  | .nan _ => some (.scalar (.float .nan))
  | .list _ _ items => (itemsJson? items).map .list
  | .map _ _ entries => (entriesJson? entries).map .map
  | _ => none
def itemsJson? : List Snapshot → Option (List Json)
  | [] => some []
  | x :: xs => do return (← json? x) :: (← itemsJson? xs)
def entriesJson? : List (Scalar × Snapshot) → Option (List (Scalar × Json))
  | [] => some []
  | (k, x) :: xs => do return (k, ← json? x) :: (← entriesJson? xs)
end

inductive WriteFault where
  | circular
  | unserializable (kind : String)
  deriving DecidableEq, Repr

def WriteFault.message : WriteFault → String
  | .circular => "Circular reference detected"
  | .unserializable kind => s!"Object of type {kind} is not JSON serializable"

mutual
/-- The tree that is written for a snapshot. -/
def written : Snapshot → Except WriteFault Json
  | .scalar s => .ok (.scalar s)
  | .nan _ => .ok (.scalar (.float .nan))
  | .member _ literal => written literal
  | .descendents _ _ _ => .error (.unserializable "Descendents")
  | .pair key _ shown => do return .list [.scalar key, ← written shown]
  | .list _ _ items => do return .list (← writtenItems items)
  | .map _ _ entries => do return .map (← writtenEntries entries)
  | .cycle _ _ _ => .error .circular
def writtenItems : List Snapshot → Except WriteFault (List Json)
  | [] => .ok []
  | x :: xs => do
    let v ← written x
    return v :: (← writtenItems xs)
def writtenEntries : List (Scalar × Snapshot) → Except WriteFault (List (Scalar × Json))
  | [] => .ok []
  | (k, x) :: xs => do
    let v ← written x
    return (k, v) :: (← writtenEntries xs)
end

def className? (m : Mark) : Option String :=
  match m.form with
  | .instance type _ => some (Name.segment type)
  | _ => none

/-- The text of a container, with the name of its class around it if it is an instance. -/
def inClass (m : Mark) (text : String) : String :=
  match className? m with
  | some name => s!"{name}({text})"
  | none => text

def memberText (m : EnumMember) : String := s!"{Name.segment m.type}.{m.name}"

/-- The text of a double that is no number. -/
def nanText : String := Double.nan.text

mutual
/-- The text of a snapshot inside a message: strings are quoted, lists stand in brackets and maps
in braces. -/
def quoted : Snapshot → String
  | .scalar s => s.quoted
  | .nan _ => nanText
  | .member m literal => "<" ++ memberText m ++ ": " ++ quoted literal ++ ">"
  | .descendents _ _ maps => s!"Descendents({Decimal.natText maps.length} maps)"
  | .pair key _ shown => "(" ++ key.quoted ++ ", " ++ quoted shown ++ ")"
  | .list _ m items => inClass m ("[" ++ quotedItems true items ++ "]")
  | .map _ m entries => inClass m ("\x7b" ++ quotedEntries true entries ++ "\x7d")
  | .cycle _ m isMap => inClass m (if isMap then "\x7b...\x7d" else "[...]")
/-- The texts of the items, separated by commas. -/
def quotedItems (first : Bool) : List Snapshot → String
  | [] => ""
  | x :: xs => (if first then "" else ", ") ++ quoted x ++ quotedItems false xs
/-- The texts of the entries, separated by commas. -/
def quotedEntries (first : Bool) : List (Scalar × Snapshot) → String
  | [] => ""
  | (k, x) :: xs =>
    (if first then "" else ", ") ++ k.quoted ++ ": " ++ quoted x ++ quotedEntries false xs
end

/-- The text of a snapshot that stands alone: a string is not quoted. -/
def text : Snapshot → String
  | .scalar s => s.plainText
  | .member m _ => memberText m
  | s => s.quoted

mutual
/-- The way to a node, as the keys and indices on it, looking at every container before what is
inside it, in order. -/
def find? (target : Ref) : Snapshot → Option (List Scalar)
  | .list r _ items => if r = target then some [] else findItem? target 0 items
  | .map r _ entries => if r = target then some [] else findEntry? target entries
  | _ => none
def findItem? (target : Ref) (index : Nat) : List Snapshot → Option (List Scalar)
  | [] => none
  | x :: xs =>
    match find? target x with
    | some way => some (.int index :: way)
    | none => findItem? target (index + 1) xs
def findEntry? (target : Ref) : List (Scalar × Snapshot) → Option (List Scalar)
  | [] => none
  | (k, x) :: xs =>
    match find? target x with
    | some way => some (k :: way)
    | none => findEntry? target xs
end

end Snapshot

namespace Store

/-- What a value looks like from inside the containers of a path. `fuel` bounds the nesting; no path
is longer than the number of nodes, with at most one view or member between two of its
containers. -/
def snapshotWithin (s : Store) : (fuel : Nat) → (path : List Ref) → Value → Snapshot
  | _, _, .scalar v => .scalar v
  | _, _, .nan mark => .nan mark
  | 0, _, .member m => .member m (.scalar .null)
  | 0, _, .node r => .cycle r ⟨.plain, none⟩ true
  | 0, _, .descendents mark root => .descendents mark root []
  | 0, _, .pair key v => .pair key v (.scalar .null)
  | fuel + 1, path, .member m =>
    .member m (s.snapshotWithin fuel path ((s.literal? m).getD .null))
  | fuel + 1, path, .pair key v => .pair key v (s.snapshotWithin fuel path v)
  | fuel + 1, path, .descendents mark root =>
    match root with
    | none => .descendents mark none []
    | some r => .descendents mark root (s.snapshotWithin fuel path (.node r)).mapsBelow
  | fuel + 1, path, .node r =>
    match s.get? r with
    | none => .cycle r ⟨.plain, none⟩ true
    | some n =>
      let mark : Mark := ⟨n.form, n.type⟩
      if path.contains r then .cycle r mark n.isMap
      else match n.body with
        | .map es => .map r mark (es.map fun (k, v) => (k, s.snapshotWithin fuel (r :: path) v))
        | .list vs => .list r mark (vs.map (s.snapshotWithin fuel (r :: path)))

def snapshot (s : Store) (v : Value) : Snapshot := s.snapshotWithin (2 * s.nodes.size + 2) [] v

/-- The maps below a node, depth first in document order. -/
def mapsBelow (s : Store) (r : Ref) : List Ref :=
  (s.snapshot (.node r)).mapsBelow.filterMap Snapshot.ref?

end Store
end Exemplar
