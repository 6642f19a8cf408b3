import Exemplar.Model.Access
import Exemplar.Proofs.RunOutcomes

/-! Literals of enums are stored when they are asked for first. That adds containers and changes none
of those that were there before, so looking for the member of a value leaves all of them alone. What is
found is the first member whose literal is the one that the value means, and there is none if the value
is taken for a bad one. -/
namespace Exemplar

namespace Store

/-- The containers below a number are as they were, and none is gone. -/
structure Extends (low : Ref) (s s' : Store) : Prop where
  below : ∀ r, r < low → s'.get? r = s.get? r
  size : s.nodes.size ≤ s'.nodes.size

variable {low : Ref} {s s₁ s₂ : Store}

theorem Extends.refl (low : Ref) (s : Store) : Extends low s s := ⟨fun _ _ => rfl, Nat.le_refl _⟩

theorem Extends.trans (h : Extends low s s₁) (h' : Extends low s₁ s₂) : Extends low s s₂ :=
  ⟨fun r hr => (h'.below r hr).trans (h.below r hr), Nat.le_trans h.size h'.size⟩

theorem Extends.found (h : Extends s.nodes.size s s₁) {r : Ref} {n : Node} (hn : s.get? r = some n) :
    s₁.get? r = some n := (h.below r (get?_lt hn)).trans hn

theorem extends_add (h : low ≤ s.nodes.size) (n : Node) : Extends low s (s.add n).2 :=
  ⟨fun _ hr => get?_add_lt (Nat.lt_of_lt_of_le hr h), by rw [size_add]; exact Nat.le_succ _⟩

/-- The member of an enum that a value is or means: the first one with such a literal. -/
def memberOf? (s : Store) (type : String) : Value → Option EnumMember
  | .member e => if e.type == type then some e else none
  | v => ((s.membersOf type).find? fun m => s.means? m.2 v == some true).map fun m => ⟨type, m.1⟩

theorem extends_modify {r : Ref} (h : low ≤ r) (s : Store) (f : Node → Node) :
    Extends low s (s.modify r f) :=
  ⟨fun _ hq => get?_modify_ne (Nat.ne_of_lt (Nat.lt_of_lt_of_le hq h)) f,
    Nat.le_of_eq (size_modify s r f).symm⟩

end Store

namespace StoreM
open Store

variable {α β : Type} {low : Ref} {P : α → Prop} {Q : β → Prop} {a : StoreM α} {f : α → StoreM β}

/-- An operation that leaves alone all containers below a number, whether it fails or not. It takes no
value for a bad one. -/
def Adds (low : Ref) (P : α → Prop) (a : StoreM α) : Prop :=
  ∀ s, low ≤ s.nodes.size → Ends a s (fun x s' => Extends low s s' ∧ P x) fun e s' =>
    Extends low s s' ∧ e ≠ .badValue

theorem Adds.bind (ha : Adds low P a) (hf : ∀ x, P x → Adds low Q (f x)) : Adds low Q (a >>= f) := by
  intro s hs
  refine (ha s hs).bind fun x s₁ hx => ?_
  obtain ⟨hfirst, hx⟩ := hx
  exact (hf x hx s₁ (Nat.le_trans hs hfirst.size)).imp
    (fun _ _ hrest => ⟨hfirst.trans hrest.1, hrest.2⟩) fun _ _ hrest => ⟨hfirst.trans hrest.1, hrest.2⟩

theorem adds_pure {x : α} (hx : P x) : Adds low P (pure x : StoreM α) :=
  fun s _ => ends_pure ⟨.refl low s, hx⟩

theorem adds_throw {e : StoreFault} (he : e ≠ .badValue) : Adds low P (throw e : StoreM α) :=
  fun s _ => ends_throw ⟨.refl low s, he⟩

theorem adds_get : Adds low (fun _ => True) (get : StoreM Store) :=
  fun s _ => ⟨.refl low s, trivial⟩

theorem adds_node (r : Ref) : Adds low (fun _ => True) (node r) :=
  adds_get.bind fun s _ => by
    cases s.get? r with
    | some n => exact adds_pure trivial
    | none => exact adds_throw nofun

theorem adds_entries (r : Ref) : Adds low (fun _ => True) (entries r) :=
  (adds_node r).bind fun n _ => by
    cases n.body with
    | map es => exact adds_pure trivial
    | list vs => exact adds_throw nofun

theorem adds_items (r : Ref) : Adds low (fun _ => True) (items r) :=
  (adds_node r).bind fun n _ => by
    cases n.body with
    | map es => exact adds_throw nofun
    | list vs => exact adds_pure trivial

theorem adds_add (n : Node) : Adds low (low ≤ ·) (add n) :=
  fun _ hs => ⟨extends_add hs n, hs⟩

theorem adds_change {r : Ref} (hr : low ≤ r) (f : Node → Node) :
    Adds low (fun _ => True) (change r f) :=
  fun s _ => ⟨extends_modify hr s f, trivial⟩

/-- A change of something else than the containers. -/
theorem adds_modify {g : Store → Store} (hg : ∀ s, (g s).nodes = s.nodes) :
    Adds low (fun _ => True) (modify g : StoreM Unit) := by
  refine fun s _ => ⟨⟨fun r _ => ?_, Nat.le_of_eq ?_⟩, trivial⟩
  · rw [get?, get?, hg]
  · rw [hg]

theorem Adds.named {r : Ref} {name : String} (ha : Adds low P a) :
    Adds low P (named r name a) := by
  refine (adds_node r).bind fun n _ => ?_
  cases Assoc.has n.attributes name with
  | true =>
    have hthrow : Adds low (fun _ => True) (throw .wrongKind : StoreM Unit) := adds_throw nofun
    exact hthrow.bind fun _ _ => ha
  | false => exact ha

theorem adds_link {r : Ref} (hr : low ≤ r) (parent : Option Ref) :
    Adds low (fun _ => True) (link r parent) := by
  refine (adds_node r).bind fun n _ => ?_
  split
  · exact adds_pure trivial
  · exact adds_throw nofun
  · exact (adds_change hr _).named

/-- A value that is no container, or one that is not below a number. -/
def IsNew (low : Ref) (v : Value) : Prop := ∀ r, v = .node r → low ≤ r

theorem adds_ofScalar (x : Scalar) : Adds low (IsNew low) (ofScalar x) := by
  cases x with
  | float x =>
    cases x with
    | nan => exact fun _ _ => ⟨⟨fun _ _ => rfl, Nat.le_refl _⟩, nofun⟩
    | _ => exact adds_pure nofun
  | _ => exact adds_pure nofun

mutual
theorem adds_ofJson (form : Form) : (j : Json) → Adds low (IsNew low) (ofJson form j)
  | .scalar x => by
    rw [ofJson]
    exact adds_ofScalar x
  | .list items => by
    rw [ofJson]
    refine (adds_add _).bind fun l hl => (adds_ofItems form hl items).bind fun _ _ => ?_
    refine adds_pure fun r hr => ?_
    cases hr
    exact hl
  | .map entries => by
    rw [ofJson]
    refine (adds_add _).bind fun m hm => (adds_ofEntries form hm entries).bind fun _ _ => ?_
    refine adds_pure fun r hr => ?_
    cases hr
    exact hm
theorem adds_ofItems (form : Form) {l : Ref} (hl : low ≤ l) :
    (js : List Json) → Adds low (fun _ => True) (ofItems form l js)
  | [] => by
    rw [ofItems]
    exact adds_pure trivial
  | j :: js => by
    rw [ofItems]
    refine (adds_ofJson form j).bind fun v hv => ?_
    have hrest : Adds low (fun _ => True) (do
        setItems l ((← items l) ++ [v])
        ofItems form l js) :=
      (adds_items l).bind fun _ _ => (adds_change hl _).bind fun _ _ => adds_ofItems form hl js
    cases v with
    | node r => exact (adds_link (hv r rfl) _).bind fun _ _ => hrest
    | _ => exact hrest
theorem adds_ofEntries (form : Form) {m : Ref} (hm : low ≤ m) :
    (js : List (Scalar × Json)) → Adds low (fun _ => True) (ofEntries form m js)
  | [] => by
    rw [ofEntries]
    exact adds_pure trivial
  | (key, j) :: js => by
    rw [ofEntries]
    refine (adds_ofJson form j).bind fun v hv => ?_
    have hrest : Adds low (fun _ => True) (do
        writeEntry m key v
        ofEntries form m js) := by
      have hwrite : Adds low (fun _ => True) (writeEntry m key v) :=
        (adds_entries m).bind fun _ _ => adds_change hm _
      exact hwrite.bind fun _ _ => adds_ofEntries form hm js
    cases v with
    | node r => exact (adds_link (hv r rfl) _).bind fun _ _ => hrest
    | _ => exact hrest
end

end StoreM

namespace EnumClass
open StoreM Store

variable {low : Ref} {s : Store}

theorem adds_literalsIn (v : Value) : Adds low (fun _ => True) (literalsIn v) := by
  refine adds_get.bind fun s _ => ?_
  cases v with
  | node r =>
    refine (adds_node r).bind fun n _ => ?_
    cases n.body <;> exact adds_pure trivial
  | _ => exact adds_pure trivial

theorem adds_store (values : List (String × Json)) (origin : LiteralOrigin) :
    Adds low (fun _ => True) (store values origin) := by
  rw [store]
  cases origin.kept with
  | none =>
    simp only []
    induction values with
    | nil => exact adds_pure trivial
    | cons e values ih =>
      rw [List.mapM_cons]
      exact (adds_ofJson _ e.2).bind fun _ _ => ih.bind fun _ _ => adds_pure trivial
  | some k => exact (adds_ofJson _ _).bind fun _ _ => adds_get.bind fun s _ => adds_literalsIn _

theorem adds_literals (d : Definition) : Adds low (fun _ => True) (literals d) := by
  rw [literals]
  refine adds_get.bind fun s _ => ?_
  cases s.enums.get? d.name with
  | some e => exact adds_pure trivial
  | none =>
    have hrest (vs : List Value) : Adds low (fun _ => True) (do
        let literals := (d.values.map Prod.fst).zip vs
        modify fun s => { s with enums := s.enums.insert d.name ⟨literals, none⟩ }
        return literals : StoreM (Assoc String Value)) :=
      (adds_modify (by intro s; rfl)).bind fun _ _ => adds_pure trivial
    cases d.shape with
    | enum values origin => exact (adds_store values origin).bind fun vs _ => hrest vs
    | _ => exact hrest []

/-- Looking a value up among names gives the first one with a literal that the value means, and fails
only at a comparison that does not end. -/
theorem ends_nameFor? (v : Value) (named : List (String × Value)) :
    Ends (nameFor? v named) s
      (fun name s' => s' = s ∧
        name = (named.find? fun m => s.means? m.2 v == some true).map Prod.fst)
      fun e s' => s' = s ∧ e = .endless := by
  induction named with
  | nil => exact ⟨rfl, rfl⟩
  | cons m named ih =>
    obtain ⟨name, literal⟩ := m
    rw [nameFor?, List.find?_cons]
    have hmeans : (means literal v).run s = (settled (s.means? literal v)).run s := rfl
    cases hanswer : s.means? literal v with
    | none =>
      rw [hanswer] at hmeans
      rw [Ends, run_bind_error hmeans]
      exact ⟨rfl, rfl⟩
    | some b =>
      rw [hanswer] at hmeans
      refine ends_bind hmeans ?_
      cases b with
      | true => exact ends_pure ⟨rfl, rfl⟩
      | false => exact ih

theorem adds_nameFor? (v : Value) (named : List (String × Value)) :
    Adds low (fun _ => True) (nameFor? v named) := by
  intro s _
  refine (ends_nameFor? v named).imp (fun _ s' h => ?_) fun _ s' h => ?_
  · obtain ⟨rfl, -⟩ := h
    exact ⟨.refl low s', trivial⟩
  · obtain ⟨rfl, rfl⟩ := h
    exact ⟨.refl low s', nofun⟩

theorem adds_nameAll (before named : List (String × Value)) :
    Adds low (fun _ => True) (nameAll before named) := by
  induction named generalizing before with
  | nil => exact adds_pure trivial
  | cons e named ih =>
    refine (adds_nameFor? e.2 before).bind fun name _ => ?_
    cases name with
    | some name => exact (ih before).bind fun _ _ => adds_pure trivial
    | none => exact (ih _).bind fun _ _ => adds_pure trivial

theorem adds_names (d : Definition) : Adds low (fun _ => True) (names d) := by
  refine (adds_literals d).bind fun ls _ => adds_get.bind fun s _ => ?_
  cases (s.enums.get? d.name).bind EnumState.names with
  | some names => exact adds_pure trivial
  | none =>
    exact (adds_nameAll [] ls).bind fun names _ =>
      (adds_modify (by intro s; rfl)).bind fun _ _ => adds_pure trivial

/-- The member of a value is the first one whose literal it means. No container that was there is
changed, and the value is a bad one only if there is no such member. -/
theorem ends_lookup (d : Definition) (v : Value) (hlow : low ≤ s.nodes.size) :
    Ends (lookup d v) s (fun e s' => Extends low s s' ∧ s'.memberOf? d.name v = some e)
      fun e s' => Extends low s s' ∧ (e = .badValue → s'.memberOf? d.name v = none) := by
  refine ((adds_names d s hlow).imp_error fun e s' h => ⟨h.1, fun heq => (h.2 heq).elim⟩).bind
    fun _ s₁ h => ?_
  obtain ⟨hextends, -⟩ := h
  by_cases hmember : ∃ e, v = .member e
  · obtain ⟨e, rfl⟩ := hmember
    simp only []
    split
    · next htype => exact ends_pure ⟨hextends, if_pos htype⟩
    · next htype => exact ends_throw ⟨hextends, fun _ => if_neg htype⟩
  · have hother : s₁.memberOf? d.name v =
        ((s₁.membersOf d.name).find? fun m => s₁.means? m.2 v == some true).map
          fun m => ⟨d.name, m.1⟩ := by
      cases v with
      | member e => exact (hmember ⟨e, rfl⟩).elim
      | _ => rfl
    split
    · exact (hmember ⟨_, rfl⟩).elim
    · refine ends_bind (run_get s₁) (((ends_nameFor? v _).imp_error fun e s' h => ?_).bind
        fun name s' h => ?_)
      · obtain ⟨rfl, rfl⟩ := h
        exact ⟨hextends, nofun⟩
      · obtain ⟨rfl, rfl⟩ := h
        cases hfind : (s'.membersOf d.name).find? fun m => s'.means? m.2 v == some true with
        | some m => exact ends_pure ⟨hextends, by rw [hother, hfind]; rfl⟩
        | none => exact ends_throw ⟨hextends, fun _ => by rw [hother, hfind]; rfl⟩

end EnumClass

/-- A property of an enum gives a value as the member that it means, if enums have classes and there is
one, and else as it is. All containers that were there are left alone. -/
theorem Workshop.ends_enumValue (w : Workshop) (d : Definition) (v : Value) {low : Ref} {s : Store}
    (hlow : low ≤ s.nodes.size) :
    StoreM.Ends (w.enumValue d v) s
      (fun x s' => Store.Extends low s s' ∧
        (x = v ∧ (w.classes = true → s'.memberOf? d.name v = none) ∨
          w.classes = true ∧ ∃ e, x = .member e ∧ s'.memberOf? d.name v = some e))
      fun _ s' => Store.Extends low s s' := by
  rw [enumValue]
  split
  · next hclasses =>
    refine StoreM.Ends.tryCatch ((EnumClass.ends_lookup d v hlow).bind fun e s' h =>
      StoreM.ends_pure ⟨h.1, .inr ⟨hclasses, e, rfl, h.2⟩⟩) fun e s' h => ?_
    split
    · exact StoreM.ends_pure ⟨h.1, .inl ⟨rfl, fun _ => h.2 rfl⟩⟩
    · exact StoreM.ends_throw h.1
  · next hclasses =>
    exact StoreM.ends_pure ⟨.refl low s, .inl ⟨rfl, fun h => absurd h hclasses⟩⟩

end Exemplar
