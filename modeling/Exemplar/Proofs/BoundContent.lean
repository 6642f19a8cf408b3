import Exemplar.Proofs.Binding

/-! What a bound document has in common with the document it was made from: all of the content, and
none of the containers. -/
namespace Exemplar

theorem Snapshot.mem_itemsRefs {xs : List Snapshot} {r : Ref} :
    r ∈ itemsRefs xs ↔ ∃ x ∈ xs, r ∈ x.refs := by
  induction xs with
  | nil => simp [itemsRefs]
  | cons x xs ih => simp [itemsRefs, ih]

theorem Snapshot.mem_entriesRefs {xs : List (Scalar × Snapshot)} {r : Ref} :
    r ∈ entriesRefs xs ↔ ∃ e ∈ xs, r ∈ e.2.refs := by
  induction xs with
  | nil => simp [entriesRefs]
  | cons e xs ih =>
    obtain ⟨key, x⟩ := e
    simp [entriesRefs, ih]

/-- Every container that is shown is in the store. -/
theorem Store.get?_of_mem_refs {s : Store} (fuel : Nat) {path : List Ref} {v : Value} {r : Ref}
    (h : r ∈ (s.snapshotWithin fuel path v).refs) : ∃ n, s.get? r = some n := by
  induction fuel generalizing path v with
  | zero => cases v <;> simp [snapshotWithin, Snapshot.refs] at h
  | succ fuel ih =>
    cases v with
    | node q =>
      rw [snapshotWithin] at h
      cases hq : s.get? q with
      | none => simp [hq, Snapshot.refs] at h
      | some n =>
        simp only [hq] at h
        split at h
        · simp [Snapshot.refs] at h
        · split at h
          · rcases List.mem_cons.mp h with rfl | h
            · exact ⟨n, hq⟩
            · obtain ⟨e, he, hr⟩ := Snapshot.mem_entriesRefs.mp h
              obtain ⟨e', -, rfl⟩ := List.mem_map.mp he
              exact ih hr
          · rcases List.mem_cons.mp h with rfl | h
            · exact ⟨n, hq⟩
            · obtain ⟨x, hx, hr⟩ := Snapshot.mem_itemsRefs.mp h
              obtain ⟨v', -, rfl⟩ := List.mem_map.mp hx
              exact ih hr
    | descendents mark root => cases root <;> simp [snapshotWithin, Snapshot.refs] at h
    | _ => simp [snapshotWithin, Snapshot.refs] at h

theorem Store.snapshot_eq_scalar {s : Store} {v : Value} {a : Scalar}
    (h : s.snapshot v = .scalar a) : v = .scalar a := by
  rw [snapshot] at h
  cases v with
  | scalar b => simpa [snapshotWithin] using h
  | node r =>
    rw [snapshotWithin] at h
    split at h
    · cases h
    · dsimp only at h
      split at h
      · cases h
      · split at h <;> cases h
  | descendents mark root => cases root <;> simp [snapshotWithin] at h
  | _ => simp [snapshotWithin] at h

theorem Store.eq_str_of_json? {s : Store} {v : Value} {a : String}
    (h : (s.snapshot v).json? = some (.scalar (.str a))) : v = .scalar (.str a) := by
  cases hx : s.snapshot v with
  | scalar b =>
    rw [hx] at h
    obtain rfl : b = .str a := Json.scalar.inj (Option.some.inj h)
    exact snapshot_eq_scalar hx
  | _ => simp [hx, Snapshot.json?] at h

theorem Json.eq_str_of_isString {j : Json} (h : j.isString = true) : ∃ a, j = .scalar (.str a) := by
  cases j with
  | scalar x =>
    cases x with
    | str a => exact ⟨a, rfl⟩
    | _ => cases h
  | _ => cases h

theorem ModelM.run_bind_get (f : Store → ModelM α) (s : Store) :
    (get >>= f).run s = (f s).run s := rfl

/-- A value that shows as a tree is written like the tree. -/
theorem Value.run_write {s : Store} {v : Value} {j : Json} (h : (s.snapshot v).json? = some j)
    (indent : Indent) :
    (v.write indent).run s = ((j.write indent).mapError ModelFault.indent, s) := by
  unfold Value.write
  split
  · rw [Store.snapshot, Store.snapshotWithin] at h
    obtain rfl := Option.some.inj h
    rfl
  · rename_i hv
    have hj : j.isString = false := by
      rw [Bool.eq_false_iff]
      intro hs
      obtain ⟨a, rfl⟩ := Json.eq_str_of_isString hs
      exact hv a (Store.eq_str_of_json? h)
    rw [Json.write, hj]
    cases indent.layout with
    | error f => rfl
    | ok layout =>
      dsimp only
      rw [pure_bind, ModelM.run_bind_get, Snapshot.written_of_json? _ h]
      rfl

namespace Workshop

/-- Binding a document to any type of any registry gives a new document of the same content, which
is written like the old one. It shares no container with the old one, every container in it is the
parent of those it holds, and no container that was there before is changed. -/
theorem bind_content {w : Workshop} (hw : w.MakesStructs) (t : Option TypeRef) {s : Store}
    {v : Value} {j : Json} (hv : (s.snapshot v).json? = some j) {q : Scalar → Prop}
    (hj : Json.IsDocument q j) :
    ∃ v' s', (w.bind v t).run s = (.ok v', s') ∧
      (s'.snapshot v').json? = some j ∧
      (∀ indent, ((v'.write indent).run s').1 = ((v.write indent).run s).1) ∧
      (∀ r n, s.get? r = some n → s'.get? r = some n) ∧
      ∀ r ∈ (s'.snapshot v').refs, r ∉ (s.snapshot v).refs ∧
        ∀ c ∈ s'.childrenOf r, s'.parent? c = some r := by
  obtain ⟨v', s', hrun, hbuilt, -⟩ := bind_rebuilt hw t hv hj
  refine ⟨v', s', hrun, hbuilt.content, fun indent => ?_, fun r n hr => ?_, fun r hr => ?_⟩
  · rw [Value.run_write hbuilt.content, Value.run_write hv]
  · rw [hbuilt.unchanged r (Store.get?_lt hr), hr]
  · obtain ⟨hnew, hparent⟩ := hbuilt.shows.keeps _ r hr
    refine ⟨fun hold => ?_, hparent⟩
    obtain ⟨n, hn⟩ := Store.get?_of_mem_refs _ hold
    exact Nat.lt_irrefl r (Nat.lt_of_lt_of_le (Store.get?_lt hn) hnew)

def chainStruct : Definition where
  name := "a.N"
  source := "a"
  shape := .struct [⟨.str "next", "next", .null, some (.defined "a.N" 0), .map⟩,
    ⟨.str "rows", "rows", .null, some (.defined "a.N.rows" 0), .list⟩] []

def chainRows : Definition where
  name := "a.N.rows"
  source := "a"
  shape := .list 2 .null (some (.defined "a.N.rows" 0))

def chainTypes : Registry := ⟨[("a.N", chainStruct), ("a.N.rows", chainRows)], [], []⟩

def chainStore : Store where
  nodes := #[
    { body := .map [(.str "rows", .node 1), (.str "next", .node 2), (.str "more", .node 3)],
      form := .plain },
    { body := .list [.node 3, .scalar (.bool true)], form := .linked, parent := some 0 },
    { body := .list [], form := .plain },
    { body := .map [], form := .linked, parent := some 1 }]

def chainDocument : Json :=
  .map [(.str "rows", .list [.map [], .scalar (.bool true)]), (.str "next", .list []),
    (.str "more", .map [])]

theorem bind_content_chain :
    let w : Workshop := ⟨chainTypes, {}, false⟩
    ∃ v' s', (w.bind (.node 0) (some (.defined "a.N" 0))).run chainStore = (.ok v', s') ∧
      (s'.snapshot v').json? = some chainDocument ∧
      (∀ indent, ((v'.write indent).run s').1 = (((Value.node 0).write indent).run chainStore).1) ∧
      (∀ r n, chainStore.get? r = some n → s'.get? r = some n) ∧
      ∀ r ∈ (s'.snapshot v').refs, r ∉ (chainStore.snapshot (.node 0)).refs ∧
        ∀ c ∈ s'.childrenOf r, s'.parent? c = some r := by
  exact bind_content (.inl rfl) _ (j := chainDocument) rfl (q := fun _ => True) (by decide)

end Workshop
end Exemplar
