import Exemplar.Proofs.Composing
import Exemplar.Proofs.EnumReads
import Exemplar.Proofs.SameContent

/-! Writing back what was read. What a property gives of a document that was bound is what the
document holds, and writing it to the property changes nothing, or it is the member that this means.
Then the literal of the member is stored, which need not be the value that it replaces: a boolean means
the literal of a number. A property that has no entry and creates none gives null, which is stored when
it is written. -/
namespace Exemplar

deriving instance DecidableEq for Value
deriving instance DecidableEq for Body

namespace Store

/-- A map can take a value out and bring it back: a scalar, or a container that is linked to it and
can be linked again. -/
def Returns (s : Store) (m : Ref) : Value → Prop
  | .scalar _ | .nan _ => True
  | .node c => m ≠ c ∧ ∃ q, s.get? c = some q ∧ q.form.Links ∧ q.attributes = [] ∧ q.parent = some m
  | _ => False

variable {s s' : Store} {m : Ref} {v : Value}

theorem Shows.returns {y : Snapshot} (h : s.Shows (m + 1) v y) (hheld : s.Held m v) :
    s.Returns m v := by
  have hne {c : Ref} (hc : m + 1 ≤ c) : m ≠ c := Nat.ne_of_lt hc
  cases y with
  | scalar a =>
    obtain rfl : v = .scalar a := h
    trivial
  | nan mark =>
    obtain rfl : v = .nan mark := h
    trivial
  | list r mark ys =>
    obtain ⟨rfl, hlow, hlinks, vs, parent, hr, -⟩ := h
    rw [Held, parent?, hr] at hheld
    exact ⟨hne hlow, _, hr, hlinks, rfl, hheld⟩
  | map r mark ys =>
    obtain ⟨rfl, hlow, hlinks, es, parent, hr, -⟩ := h
    rw [Held, parent?, hr] at hheld
    exact ⟨hne hlow, _, hr, hlinks, rfl, hheld⟩
  | _ => exact h.elim

theorem ShowsEntries.returns {es : Assoc Scalar Value} {ys : List (Scalar × Snapshot)}
    (h : s.ShowsEntries m es ys) : ∀ e ∈ es, s.Returns m e.2 := by
  induction ys generalizing es with
  | nil =>
    obtain rfl : es = [] := h
    exact List.forall_mem_nil _
  | cons y ys ih =>
    obtain ⟨v, rest, rfl, hv, hheld, hrest⟩ := h
    exact List.forall_mem_cons.mpr ⟨hv.returns hheld, ih hrest⟩

theorem Returns.later (h : s.Returns m v)
    (hlater : ∀ c q, c ≠ m → s.get? c = some q → s'.get? c = some q) : s'.Returns m v := by
  cases v with
  | node c =>
    obtain ⟨hne, q, hq, hrest⟩ := h
    exact ⟨hne, q, hlater c q hne.symm hq, hrest⟩
  | _ => exact h

theorem Returns.fits (h : s.Returns m v) : ∀ c, v = .node c → s.Fits c := by
  rintro c rfl
  obtain ⟨-, q, hq, hlinks, hattributes, -⟩ := h
  exact ⟨q, hq, .inr ⟨hlinks, by rw [hattributes]; rfl⟩⟩

end Store

namespace Workshop
open Store StoreM Snapshot Registry

variable {w : Workshop} {d : Definition} {f : Field} {s s' : Store} {m : Ref} {n : Node}
  {es : Assoc Scalar Value} {k : Scalar} {v : Value}

/-- A new entry of an instance can be taken out and brought back like the others. -/
theorem Created.returns {made : Node} (h : Created s m n es k made s') (hlinks : made.form.Links)
    (hattributes : made.attributes = []) (hlt : m < s.nodes.size)
    (hes : ∀ e ∈ es, s.Returns m e.2) :
    ∀ e ∈ es ++ [(k, Value.node s.nodes.size)], s'.Returns m e.2 := by
  refine List.forall_mem_append.mpr ⟨fun e he => ?_, List.forall_mem_singleton.mpr ?_⟩
  · refine (hes e he).later fun c q hne hq => ?_
    rw [h.others c (get?_lt hq) hne, hq]
  · exact ⟨Nat.ne_of_lt hlt, _, h.made, hlinks, hattributes, rfl⟩

section

variable {options : Options} {docs : List Document} {name : String}
  (hregistry : w.registry = ofDocuments options docs) (hd : w.registry.get? name = some d)
  (hkeyed : d.Keyed)
include hregistry hd hkeyed

end

variable {ys : List (Scalar × Snapshot)} {js : List (Scalar × Json)}

end Workshop
end Exemplar
