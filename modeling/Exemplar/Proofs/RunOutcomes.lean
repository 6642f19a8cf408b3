import Exemplar.Proofs.Nodes
import Exemplar.Store.Operation

/-! How a run ends, with a result or with a fault, and what is known of the store in either case. Most
of what can fail in an operation only reads, and leaves the store as it is when it fails. -/
namespace Exemplar.StoreM

variable {α β : Type} {a : StoreM α} {f : α → StoreM β} {s s' : Store} {x : α} {r : Ref} {n : Node}
  {P P' : α → Store → Prop} {Q : β → Store → Prop} {E E' : StoreFault → Store → Prop}

/-- A run ends with a result as `P` says, or with a fault as `E` says. -/
def Ends (a : StoreM α) (s : Store) (P : α → Store → Prop) (E : StoreFault → Store → Prop) : Prop :=
  match a.run s with
  | (.ok x, s') => P x s'
  | (.error f, s') => E f s'

theorem Ends.of_ok (h : Ends a s P E) (hrun : a.run s = (.ok x, s')) : P x s' := by
  rwa [Ends, hrun] at h

theorem Ends.of_error (h : Ends a s P E) {e : StoreFault} (hrun : a.run s = (.error e, s')) :
    E e s' := by
  rwa [Ends, hrun] at h

/-- What holds of the store however a run ends. -/
theorem Ends.store {P : Store → Prop} (h : Ends a s (fun _ => P) fun _ => P) : P (a.run s).2 := by
  unfold Ends at h
  split at h
  · next hrun => rwa [hrun]
  · next hrun => rwa [hrun]

/-- A run that cannot fail gives a result. -/
theorem Ends.ok (h : Ends a s P E) (hno : ∀ e s', ¬ E e s') :
    ∃ x s', a.run s = (.ok x, s') ∧ P x s' := by
  rcases hrun : a.run s with ⟨e | x, s'⟩
  · exact (hno e s' (h.of_error hrun)).elim
  · exact ⟨x, s', rfl, h.of_ok hrun⟩

theorem ends_ok (hrun : a.run s = (.ok x, s')) (hx : P x s') : Ends a s P E := by
  rwa [Ends, hrun]

theorem ends_pure (hx : P x s) : Ends (pure x : StoreM α) s P E := hx

theorem ends_throw {e : StoreFault} (he : E e s) : Ends (throw e : StoreM α) s P E := he

theorem Ends.imp (h : Ends a s P E) (hP : ∀ x s', P x s' → P' x s') (hE : ∀ e s', E e s' → E' e s') :
    Ends a s P' E' := by
  unfold Ends at h ⊢
  split at h
  · exact hP _ _ h
  · exact hE _ _ h

theorem Ends.imp_error (h : Ends a s P E) (hE : ∀ e s', E e s' → E' e s') : Ends a s P E' :=
  h.imp (fun _ _ hx => hx) hE

theorem Ends.bind (h : Ends a s P E) (hf : ∀ x s', P x s' → Ends (f x) s' Q E) :
    Ends (a >>= f) s Q E := by
  unfold Ends at h
  split at h
  · next x s' hrun =>
    rw [Ends, run_bind hrun]
    exact hf x s' h
  · next e s' hrun =>
    rw [Ends, run_bind_error hrun]
    exact h

/-- What ran well is behind. -/
theorem ends_bind (hrun : a.run s = (.ok x, s')) (hf : Ends (f x) s' Q E) : Ends (a >>= f) s Q E := by
  rw [Ends, run_bind hrun]
  exact hf

theorem run_tryCatch (a : StoreM α) (handle : StoreFault → StoreM α) (s : Store) :
    (tryCatch a handle : StoreM α).run s =
      match a.run s with
      | (.ok x, s') => (.ok x, s')
      | (.error e, s') => (handle e).run s' := by
  unfold StoreM.run
  simp only [tryCatch, tryCatchThe, MonadExceptOf.tryCatch, ExceptT.tryCatch, ExceptT.run,
    ExceptT.mk, bind, StateT.bind, StateT.run]
  rcases a s with ⟨e | x, s'⟩ <;> rfl

/-- A fault is handled. -/
theorem Ends.tryCatch (h : Ends a s P E) {handle : StoreFault → StoreM α}
    (hhandle : ∀ e s', E e s' → Ends (handle e) s' P E') : Ends (tryCatch a handle) s P E' := by
  unfold Ends at h
  split at h
  · next x s' hrun =>
    rw [Ends, run_tryCatch, hrun]
    exact h
  · next e s' hrun =>
    rw [Ends, run_tryCatch, hrun]
    exact hhandle e s' h

theorem ends_change {g : Node → Node} {P : Unit → Store → Prop} (hs : P () (s.modify r g)) :
    Ends (change r g) s P E := hs

theorem Ends.silent {a : StoreM Unit} {P : Store → Prop} (h : Ends a s (fun _ => P) E) :
    Ends (silent a) s (fun _ => P) E :=
  h.bind fun _ _ hs => ends_pure hs

/-- An operation that leaves the store as it is, whether it fails or not. -/
def Reads (a : StoreM α) : Prop := ∀ s, (a.run s).2 = s

theorem Reads.ends (h : Reads a) (hok : ∀ x, a.run s = (.ok x, s) → P x s) (herror : ∀ e, E e s) :
    Ends a s P E := by
  have hs := h s
  rw [Ends]
  rcases hrun : a.run s with ⟨e | x, s'⟩ <;> obtain rfl : s' = s := by rw [hrun] at hs; exact hs
  · exact herror e
  · exact hok x hrun

theorem Reads.of_ok (h : Reads a) (hrun : a.run s = (.ok x, s')) : s' = s := by
  have hs := h s
  rwa [hrun] at hs

theorem Reads.ends_bind (h : Reads a) (hf : ∀ x, a.run s = (.ok x, s) → Ends (f x) s Q E)
    (herror : ∀ e, E e s) : Ends (a >>= f) s Q E := by
  have hends : Ends a s (fun x s' => a.run s = (.ok x, s) ∧ s' = s) E :=
    h.ends (fun x hrun => ⟨hrun, rfl⟩) herror
  refine hends.bind fun x s' hx => ?_
  obtain ⟨hrun, rfl⟩ := hx
  exact hf x hrun

theorem Reads.bind (h : Reads a) (hf : ∀ x, Reads (f x)) : Reads (a >>= f) := by
  intro s
  have hends : Ends (a >>= f) s (fun _ s' => s' = s) fun _ s' => s' = s := by
    have hfirst : Ends a s (fun _ s' => s' = s) fun _ s' => s' = s :=
      h.ends (fun _ _ => rfl) fun _ => rfl
    refine hfirst.bind fun x s' hs' => ?_
    subst hs'
    exact (hf x).ends (fun _ _ => rfl) fun _ => rfl
  unfold Ends at hends
  split at hends
  · next hrun => rw [hrun, hends]
  · next hrun => rw [hrun, hends]

theorem reads_pure (x : α) : Reads (pure x : StoreM α) := fun _ => rfl

theorem reads_throw (e : StoreFault) : Reads (throw e : StoreM α) := fun _ => rfl

theorem Reads.number {a : StoreM Nat} (h : Reads a) : Reads (number a) :=
  h.bind fun _ => reads_pure _

theorem Reads.truth {a : StoreM Bool} (h : Reads a) : Reads (truth a) :=
  h.bind fun _ => reads_pure _

theorem reads_get : Reads (get : StoreM Store) := fun _ => rfl

theorem reads_node (r : Ref) : Reads (node r) :=
  reads_get.bind fun s => by
    cases s.get? r with
    | some n => exact reads_pure n
    | none => exact reads_throw _

theorem reads_isPlain (r : Ref) : Reads (isPlain r) := (reads_node r).bind fun _ => reads_pure _

theorem reads_entries (r : Ref) : Reads (entries r) :=
  (reads_node r).bind fun n => by
    cases n.body with
    | map es => exact reads_pure es
    | list vs => exact reads_throw _

theorem reads_items (r : Ref) : Reads (items r) :=
  (reads_node r).bind fun n => by
    cases n.body with
    | map es => exact reads_throw _
    | list vs => exact reads_pure vs

theorem reads_elements (v : Value) : Reads (elements v) := by
  match v with
  | .scalar (.str _) | .pair _ _ | .descendents _ none => exact reads_pure _
  | .scalar .null | .scalar (.bool _) | .scalar (.int _) | .scalar (.float _) | .nan _ | .member _ =>
    exact reads_throw _
  | .descendents _ (some _) => exact reads_get.bind fun _ => reads_pure _
  | .node r =>
    refine (reads_node r).bind fun n => ?_
    cases n.body <;> exact reads_pure _

theorem reads_keyOf (v : Value) : Reads (keyOf v) := by
  induction v with
  | node _ => exact reads_throw _
  | pair _ _ ih => exact ih.bind fun _ => reads_pure _
  | _ => exact reads_pure _

theorem reads_entryOf (v : Value) : Reads (entryOf v) :=
  (reads_elements v).bind fun vs => by
    match vs with
    | [] | [_] | _ :: _ :: _ :: _ => exact reads_throw _
    | [key, value] =>
      refine (reads_keyOf key).bind fun k => ?_
      cases k with
      | some k => exact reads_pure _
      | none => exact reads_throw _

theorem reads_collectEntries (acc : Assoc Scalar Value) (vs : List Value) :
    Reads (collectEntries acc vs) := by
  induction vs generalizing acc with
  | nil => exact reads_pure acc
  | cons v vs ih => exact (reads_entryOf v).bind fun e => ih _

theorem reads_contentOf (v : Value) : Reads (contentOf v) := by
  cases v with
  | node r =>
    refine (reads_node r).bind fun n => ?_
    cases n.body with
    | map es => exact reads_pure es
    | list vs => exact reads_collectEntries [] vs
  | _ => exact (reads_elements _).bind fun vs => reads_collectEntries [] vs

theorem reads_settled (answer : Option Bool) : Reads (settled answer) := by
  cases answer with
  | some b => exact reads_pure b
  | none => exact reads_throw _

theorem reads_compareInside (v w : Value) :
    Reads (do settled ((← get).compareInside v w) : StoreM Bool) :=
  reads_get.bind fun _ => reads_settled _

theorem reads_placeAmong (v : Value) (place : Nat) (vs : List Value) :
    Reads (placeAmong v place vs) := by
  induction vs generalizing place with
  | nil => exact reads_pure none
  | cons w vs ih =>
    refine reads_get.bind fun s => (reads_settled _).bind fun b => ?_
    cases b with
    | true => exact reads_pure _
    | false => exact ih _

theorem reads_countAmong (v : Value) (vs : List Value) : Reads (countAmong v vs) := by
  induction vs with
  | nil => exact reads_pure 0
  | cons w vs ih =>
    exact reads_get.bind fun s => (reads_settled _).bind fun b => ih.bind fun _ => reads_pure _

end Exemplar.StoreM

namespace Exemplar.MapNode
open StoreM

variable {m : Ref} {key : Scalar}

theorem reads_get? (m : Ref) (key : Scalar) : Reads (get? m key) :=
  (reads_entries m).bind fun _ => reads_pure _

theorem reads_get! (m : Ref) (key : Scalar) : Reads (get! m key) :=
  (reads_get? m key).bind fun o => by
    cases o with
    | some v => exact reads_pure v
    | none => exact reads_throw _

theorem reads_getD (m : Ref) (key : Scalar) (default : Value) : Reads (getD m key default) :=
  (reads_get? m key).bind fun _ => reads_pure _

theorem reads_size (m : Ref) : Reads (size m) := (reads_entries m).bind fun _ => reads_pure _

theorem reads_contains (m : Ref) (key : Scalar) : Reads (contains m key) :=
  (reads_get? m key).bind fun _ => reads_pure _

theorem reads_hasKey (m : Ref) (v : Value) : Reads (hasKey m v) :=
  (reads_keyOf v).bind fun key => by
    cases key with
    | some key => exact reads_contains m key
    | none => exact reads_pure false

theorem reads_requireLinked (m : Ref) : Reads (requireLinked m) :=
  (reads_isPlain m).bind fun b => by
    cases b with
    | true => exact reads_throw _
    | false => exact reads_pure _

end Exemplar.MapNode

namespace Exemplar.ListNode
open StoreM

theorem reads_get! (l : Ref) (index : Int) : Reads (get! l index) :=
  (reads_items l).bind fun vs => by
    cases (placeOf vs.length index).bind (vs[·]?) with
    | some v => exact reads_pure v
    | none => exact reads_throw _

theorem reads_getD (l : Ref) (index : Int) (default : Value) : Reads (getD l index default) :=
  (reads_items l).bind fun _ => reads_pure _

theorem reads_size (l : Ref) : Reads (size l) := (reads_items l).bind fun _ => reads_pure _

theorem reads_contains (l : Ref) (v : Value) : Reads (contains l v) :=
  (reads_items l).bind fun vs => (reads_placeAmong v 0 vs).bind fun _ => reads_pure _

theorem reads_count (l : Ref) (v : Value) : Reads (count l v) :=
  (reads_items l).bind fun vs => reads_countAmong v vs

theorem reads_span (l : Ref) (slice : Slice) : Reads (span l slice) :=
  (reads_items l).bind fun vs => by
    cases slice.span? vs.length with
    | some t => exact reads_pure t
    | none => exact reads_throw _

theorem reads_requireCountable (index : Int) : Reads (requireCountable index) := by
  unfold requireCountable
  split
  · exact reads_throw _
  · exact reads_pure ()

theorem reads_requireLinked (l : Ref) : Reads (requireLinked l) :=
  (reads_isPlain l).bind fun b => by
    cases b with
    | true => exact reads_throw _
    | false => exact reads_pure _

theorem reads_indexWithin (l : Ref) (v : Value) (start stop : Option Int) :
    Reads (indexWithin l v start stop) := by
  refine (reads_items l).bind fun vs => (reads_placeAmong v _ _).bind fun o => ?_
  cases o with
  | some i => exact reads_pure i
  | none => exact reads_throw _

theorem reads_indexOf (l : Ref) (v : Value) : Reads (indexOf l v) := reads_indexWithin l v none none

end Exemplar.ListNode
