import Exemplar.Proofs.OperationEffects

/-! What failed operations leave behind, on all maps and lists of any store. The content is the same in
every case, and so are the links, except where an operation released or linked something before it
failed. -/
namespace Exemplar
open StoreM Value

namespace Store

variable {s s' : Store} {m l : Ref} {v : Value} {f : StoreFault} {bindItem : ListNode.BindItem}

/-- An operation failed without a trace, or has no end. -/
def Untouched (s : Store) (f : StoreFault) (s' : Store) : Prop := f = .endless ∨ s' = s

/-- An operation changes a map, and the values that it is given are there. A key that is written to be
read equals itself. -/
structure CallsMap (s : Store) (m : Ref) (op : MapOperation) : Prop where
  changes : op.changes = true
  stored : ∀ v ∈ op.stored s m, s.Knows v
  popped : ∀ key d, op = .pop key (some d) → s.Knows d
  key : ∀ key, (∃ v, op = .setDefault key v) ∨ (∃ seed, op = .autocreate key seed) →
    (key == key) = true

/-- An operation changes a list, and the values that it is given are there. -/
structure CallsList (s : Store) (op : ListOperation) : Prop where
  changes : op.changes = true
  stored : ∀ v ∈ op.stored s, s.Knows v

/-- An operation on a linked map that fails has changed nothing. -/
theorem Ready.ends_map (h : s.Ready m true) {op : MapOperation} (hop : s.CallsMap m op) :
    Ends (op.run m) s (fun _ _ => True) s.Untouched := by
  refine (h.ends_map_run hop.stored hop.popped).imp (fun _ _ _ => trivial) fun f s' he => ?_
  rcases he with hsame | ⟨-, hend | hmisses⟩
  · exact Or.inr hsame
  · exact Or.inl hend
  · cases op with
    | setDefault key w =>
      rw [MapOperation.misses, hop.key key (Or.inl ⟨w, rfl⟩)] at hmisses
      cases hmisses
    | autocreate key seed =>
      rw [MapOperation.misses, hop.key key (Or.inr ⟨seed, rfl⟩)] at hmisses
      cases hmisses
    | _ => cases hmisses

/-- A failed operation on a list: nothing was changed, or it was one that links first. -/
def LeftBy (s : Store) (l : Ref) (op : ListOperation) (f : StoreFault) (s' : Store) : Prop :=
  s.Untouched f s' ∨
    op.linksFirst = true ∧ s.HalfDone (op.releasedFirst s l) (op.stored s) s'

theorem Ready.ends_list (h : s.Ready l false) {op : ListOperation} (hop : s.CallsList op) :
    Ends (op.run bindItem l) s (fun _ _ => True) (s.LeftBy l op) := by
  refine (h.ends_list_run hop.stored).imp (fun _ _ _ => trivial) fun f s' he => ?_
  rcases he with hsame | ⟨-, hend | rfl⟩ | hhalf
  · exact Or.inl (Or.inr hsame)
  · exact Or.inl (Or.inl hend)
  · cases hop.changes
  · exact Or.inr hhalf

/-- On any maps and lists, what fails leaves all content as it was. A failed operation on a map has
changed nothing at all, nor has one on a list, except that an assignment to a slice may have released
the items of the slice, which have no parent then, and it and an insertion may have linked the linked
containers in the new values. -/
theorem left_by_failed (bindItem : ListNode.BindItem) (hf : f ≠ .endless) :
    (∀ m op, s.Ready m true → s.CallsMap m op → (op.run m).run s = (.error f, s') → s' = s) ∧
    ∀ l op, s.Ready l false → s.CallsList op → (op.run bindItem l).run s = (.error f, s') →
      s' = s ∨ op.linksFirst = true ∧ s.HalfDone (op.releasedFirst s l) (op.stored s) s' := by
  refine ⟨fun m op h hop hrun => ?_, fun l op h hop hrun => ?_⟩
  · exact ((h.ends_map hop).of_error hrun).resolve_left hf
  · exact ((h.ends_list hop).of_error hrun).imp_left fun hleft => hleft.resolve_left hf

/-- One item is assigned to the two places of a slice. The assignment fails, but the map in the first
place has lost its parent. -/
theorem left_by_failed_slice :
    let s : Store := { nodes := #[
      { body := .list [.node 1, .scalar (.int 1), .scalar (.int 2)], form := .linked },
      { body := .map [], form := .linked, parent := some 0 },
      { body := .list [.scalar (.int 7)], form := .plain }] }
    let op : ListOperation := .setSlice ⟨some 0, some 3, some 2⟩ (.node 2)
    ∃ s', (op.run (fun _ v => pure v) 0).run s = (.error .badValue, s') ∧
      s.HalfDone [.node 1, .scalar (.int 2)] [.scalar (.int 7)] s' ∧
      s.parent? 1 = some 0 ∧ s'.parent? 1 = none ∧ s'.Holds 0 (.node 1) := by
  intro s op
  have hintact : s.Intact := by
    refine ⟨fun r n hn => ?_, fun r n hn v hv => ?_⟩
    · match r, hn with
      | 0, hn | 1, hn => cases hn; exact Or.inr ⟨rfl, rfl⟩
      | 2, hn => cases hn; exact Or.inl rfl
    · match r, hn with
      | 0, hn =>
        cases hn
        rcases List.mem_cons.mp hv with rfl | hv
        · exact show 1 < 3 by decide
        · rcases List.mem_cons.mp hv with rfl | hv
          · trivial
          · obtain rfl := List.mem_singleton.mp hv
            trivial
      | 1, hn => cases hn; cases hv
      | 2, hn =>
        cases hn
        obtain rfl := List.mem_singleton.mp hv
        trivial
  have hcalls : s.CallsList op := by
    refine ⟨rfl, fun v hv => ?_⟩
    obtain rfl := List.mem_singleton.mp hv
    trivial
  have hleft := (left_by_failed (f := .badValue) (fun _ v => pure v) (by simp)).2 0 op
    ⟨hintact, _, rfl, rfl, rfl⟩ hcalls rfl
  refine ⟨_, rfl, (hleft.resolve_left ?_).2, rfl, rfl, ⟨_, rfl, rfl, List.mem_cons_self⟩⟩
  intro hsame
  have hlost := congrArg (parent? · 1) hsame
  cases hlost

end Store
end Exemplar
