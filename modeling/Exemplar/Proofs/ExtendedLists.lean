import Exemplar.Proofs.Nodes
import Exemplar.Proofs.Tables
import Exemplar.Store.Operation

/-! Lists that are extended by lists. The items of the one are read one after the other while they are
appended to the other: this comes to an end if the lists are two, and never if a list that is not empty
is extended by itself. -/
namespace Exemplar

namespace Store

variable {s s' : Store} {a b : Ref} {us vs : List Value} {v : Value} {same : Ref → Prop}

/-- The operations that are called by name when a list is extended. -/
def extendingNames : List String := ["extend", "append", adoptOperation]

/-- A value that a list takes as it is: a linked container, where nothing was set in the place of the
operation that links it, or no container. -/
def Adoptable (s : Store) : Value → Prop
  | .node c => ∃ n, s.get? c = some n ∧ n.form.Links ∧ Assoc.has n.attributes linkOperation = false
  | .pair _ _ => False
  | _ => True

def LinkedList (s : Store) (l : Ref) (vs : List Value) : Prop :=
  ∃ n, s.get? l = some n ∧ n.body = .list vs ∧ (n.form == .plain) = false

/-- Nothing was set on a list in the place of the operations by which it is extended. -/
def Extendable (s : Store) (l : Ref) : Prop :=
  ∃ n, s.get? l = some n ∧ ∀ name ∈ extendingNames, Assoc.has n.attributes name = false

theorem LinkedList.unique (h : s.LinkedList a us) (h' : s.LinkedList a vs) : us = vs := by
  obtain ⟨n, hn, hbody, -⟩ := h
  obtain ⟨n', hn', hbody', -⟩ := h'
  obtain rfl := Option.some.inj (hn.symm.trans hn')
  exact Body.list.inj (hbody.symm.trans hbody')

theorem Retains.adoptable (h : s.Retains same s') (hv : s.Adoptable v) : s'.Adoptable v := by
  cases v with
  | node c =>
    obtain ⟨n, hn, hlinks, hset⟩ := hv
    obtain ⟨n', hn', hform, hset', -⟩ := h c n hn
    exact ⟨n', hn', hform ▸ hlinks, (hset' linkOperation (by decide)).trans hset⟩
  | pair key w => exact hv
  | _ => trivial

theorem Retains.extendable (h : s.Retains same s') (ha : s.Extendable a) : s'.Extendable a := by
  obtain ⟨n, hn, hfree⟩ := ha
  obtain ⟨n', hn', -, hset, -⟩ := h a n hn
  refine ⟨n', hn', fun name hname => ?_⟩
  rw [hset name, hfree name hname]
  rintro rfl
  exact absurd hname (by decide)

theorem Retains.list (h : s.Retains same s') (hb : s.LinkedList b vs) (hsame : same b) :
    s'.LinkedList b vs := by
  obtain ⟨n, hn, hbody, hform⟩ := hb
  obtain ⟨n', hn', hform', -, hbody'⟩ := h b n hn
  exact ⟨n', hn', (hbody' hsame).trans hbody, hform' ▸ hform⟩

/-- While a list gets more items, every list has at least the items that it had. -/
theorem Retains.list_or_more (h : s.Retains (· ≠ a) s') (ha : s.LinkedList a us)
    (ha' : s'.LinkedList a (us ++ [v])) (hb : s.LinkedList b vs) :
    ∃ more, s'.LinkedList b (vs ++ more) := by
  by_cases hab : b = a
  · subst hab
    obtain rfl := hb.unique ha
    exact ⟨[v], ha'⟩
  · exact ⟨[], by rw [List.append_nil]; exact h.list hb hab⟩

end Store

namespace ListNode
open StoreM Store

variable {s s' : Store} {a b : Ref} {us vs : List Value} {v : Value}

/-- An adoptable value is adopted as it is. -/
theorem run_adoptInto_adoptable (hv : s.Adoptable v) (parent : Option Ref) :
    ∃ s', (adoptInto v parent).run s = (.ok v, s') ∧ s.Retains (fun _ => True) s' := by
  cases v with
  | node c =>
    obtain ⟨n, hn, hlinks, hfree⟩ := hv
    exact ⟨_, run_adoptInto_free hn hlinks hfree parent, retains_modify s c (fun _ => rfl)
      (fun n name hne => Assoc.has_erase n.attributes hne) (fun _ _ => rfl)⟩
  | pair key w => exact hv.elim
  | _ => exact ⟨s, rfl, Retains.refl s _⟩

theorem run_isPlainContainer_adoptable (hv : s.Adoptable v) :
    (isPlainContainer v).run s = (.ok false, s) := by
  cases v with
  | node c =>
    obtain ⟨n, hn, hlinks, -⟩ := hv
    rw [isPlainContainer, run_isPlain hn, hlinks.ne_plain]
  | _ => rfl

/-- An adoptable value is accepted as it is, also by a bound list. -/
theorem run_acceptItem_adoptable (bindItem : BindItem) (ha : s.LinkedList a us)
    (hopen : s.Extendable a) (hv : s.Adoptable v) :
    ∃ s', (acceptItem bindItem a v).run s = (.ok v, s') ∧ s.Retains (fun _ => True) s' := by
  obtain ⟨n, hn, -, hform⟩ := ha
  obtain ⟨n', hn', hfree⟩ := hopen
  obtain rfl := Option.some.inj (hn.symm.trans hn')
  obtain ⟨s', hadopt, hretains⟩ := run_adoptInto_adoptable hv (some a)
  refine ⟨s', ?_, hretains⟩
  rw [acceptItem, run_named_free hn (hfree _ (by decide)), run_bind (run_node hn)]
  split
  · rw [run_bind (run_isPlainContainer_adoptable hv)]
    exact hadopt
  · rw [run_accept hn hform]
    exact hadopt

/-- An adoptable value is appended to a linked list, and every other container keeps its content. -/
theorem run_append_adoptable (bindItem : BindItem) (ha : s.LinkedList a us)
    (hopen : s.Extendable a) (hv : s.Adoptable v) :
    ∃ s', (named a "append" (append bindItem a v)).run s = (.ok (), s') ∧
      s'.LinkedList a (us ++ [v]) ∧ s.Retains (· ≠ a) s' := by
  obtain ⟨s₁, haccept, hretains⟩ := run_acceptItem_adoptable bindItem ha hopen hv
  obtain ⟨n₁, hn₁, hbody₁, hform₁⟩ := hretains.list ha trivial
  obtain ⟨n, hn, hfree⟩ := hopen
  have hwritten : s₁.Retains (· ≠ a) (s₁.modify a fun n => { n with body := .list (us ++ [v]) }) :=
    retains_modify s₁ a (fun _ => rfl) (fun _ _ _ => rfl) (fun _ hne => absurd rfl hne)
  have haccepted : s.Retains (· ≠ a) s₁ := hretains.mono fun _ _ => trivial
  refine ⟨_, ?_, ⟨_, get?_modify_self hn₁ _, rfl, hform₁⟩, haccepted.trans hwritten⟩
  rw [run_named_free hn (hfree _ (by decide)), append, run_bind haccept,
    run_bind (run_items hn₁ hbody₁)]
  rfl

/-- One turn of extending a list by another one: the item at a place of the other is read, as it is by
then, and appended. It tells whether there was one. -/
def turn (bindItem : BindItem) (a b : Ref) (i : Nat) : StoreM Bool := do
  match (← items b)[i]? with
  | some v =>
    named a "append" (append bindItem a v)
    return true
  | none => return false

/-- So many turns from a place on, each with an item. -/
inductive Turns (bindItem : BindItem) (a b : Ref) : Nat → Store → Nat → Store → Prop
  | none (i : Nat) (s : Store) : Turns bindItem a b i s 0 s
  | more {i k : Nat} {s s₁ s' : Store} (first : (turn bindItem a b i).run s = (.ok true, s₁))
      (rest : Turns bindItem a b (i + 1) s₁ k s') : Turns bindItem a b i s (k + 1) s'

theorem run_turn (bindItem : BindItem) (i : Nat) (hb : s.LinkedList b vs)
    (hi : vs[i]? = some v) (hrun : (named a "append" (append bindItem a v)).run s = (.ok (), s')) :
    (turn bindItem a b i).run s = (.ok true, s') := by
  obtain ⟨n, hn, hbody, -⟩ := hb
  rw [turn, run_bind (run_items hn hbody), hi]
  exact run_bind hrun _

theorem run_turn_end (bindItem : BindItem) {i : Nat} (hb : s.LinkedList b vs) (hi : vs.length ≤ i) :
    (turn bindItem a b i).run s = (.ok false, s) := by
  obtain ⟨n, hn, hbody, -⟩ := hb
  rw [turn, run_bind (run_items hn hbody), List.getElem?_eq_none hi]
  rfl

/-- Items that a list has from a place on are appended in as many turns. The list may be the one that
they are appended to, which has these items in these places all the while. -/
theorem run_appendAll_turns (bindItem : BindItem) (done : List Value) {rest later : List Value}
    (ha : s.LinkedList a us) (hopen : s.Extendable a) (hb : s.LinkedList b (done ++ rest ++ later))
    (hrest : ∀ v ∈ rest, s.Adoptable v) :
    ∃ s', (appendAll bindItem a rest).run s = (.ok (), s') ∧ s'.LinkedList a (us ++ rest) ∧
      s.Retains (· ≠ a) s' ∧ Turns bindItem a b done.length s rest.length s' := by
  induction rest generalizing s us done later with
  | nil => exact ⟨s, rfl, by rwa [List.append_nil], .refl s _, .none _ s⟩
  | cons v rest ih =>
    obtain ⟨hv, hrest⟩ := List.forall_mem_cons.mp hrest
    obtain ⟨s₁, happend, ha₁, hretains⟩ := run_append_adoptable bindItem ha hopen hv
    obtain ⟨more, hb₁⟩ := hretains.list_or_more ha ha₁ hb
    have hturn := run_turn bindItem done.length hb (by simp) happend
    rw [List.append_assoc, List.append_cons done v rest] at hb₁
    obtain ⟨s', hall, ha', hretains', hturns⟩ := ih (done ++ [v]) ha₁ (hretains.extendable hopen) hb₁
      fun w hw => hretains.adoptable (hrest w hw)
    rw [List.length_append, List.length_singleton] at hturns
    refine ⟨s', ?_, by rwa [List.append_assoc] at ha', hretains.trans hretains', .more hturn hturns⟩
    rw [appendAll, run_bind happend, hall]

/-- A list that is extended by itself always has one more item to append. -/
theorem exists_turns (bindItem : BindItem) (k i : Nat) (ha : s.LinkedList a us)
    (hopen : s.Extendable a) (hus : ∀ v ∈ us, s.Adoptable v) (hi : i < us.length) :
    ∃ s' more, Turns bindItem a a i s k s' ∧ more.length = k ∧ s'.LinkedList a (us ++ more) := by
  induction k generalizing s us i with
  | zero => exact ⟨s, [], .none i s, rfl, by rwa [List.append_nil]⟩
  | succ k ih =>
    have hmem := List.getElem_mem hi
    obtain ⟨s₁, happend, ha₁, hretains⟩ := run_append_adoptable bindItem ha hopen (hus _ hmem)
    have hturn := run_turn bindItem i ha (List.getElem?_eq_getElem hi) happend
    have hus₁ : ∀ v ∈ us ++ [us[i]], s₁.Adoptable v := by
      intro v hv
      refine hretains.adoptable (hus v ?_)
      rcases List.mem_append.mp hv with hv | hv
      · exact hv
      · exact List.mem_singleton.mp hv ▸ hmem
    obtain ⟨s', more, hturns, hlength, ha'⟩ :=
      ih (i + 1) ha₁ (hretains.extendable hopen) hus₁ (by simpa using hi)
    refine ⟨s', us[i] :: more, .more hturn hturns, by rw [List.length_cons, hlength], ?_⟩
    rwa [List.append_assoc] at ha'

theorem run_requireEnd_other (hne : a ≠ b ∨ vs = []) :
    (requireEnd a (.node b) vs).run s = (.ok (), s) := by
  have hnot : ¬((Value.node b).identical (.node a) = true ∧ (!vs.isEmpty) = true) := by
    rintro ⟨hsame, hsome⟩
    rcases hne with hne | rfl
    · exact hne (eq_of_beq hsame).symm
    · cases hsome
  rw [requireEnd, if_neg hnot]
  rfl

theorem run_requireEnd_self (ha : s.LinkedList a us) (hne : vs ≠ []) :
    (requireEnd a (.node a) vs).run s = (.error .endless, s) := by
  obtain ⟨n, hn, -, hform⟩ := ha
  have hself : (Value.node a).identical (.node a) = true ∧ (!vs.isEmpty) = true :=
    ⟨beq_self_eq_true a, by simpa using hne⟩
  rw [requireEnd, if_pos hself, run_bind (run_isPlain hn), hform]
  rfl

/-- A list is extended by the items that another one, or it itself, has at the time. -/
theorem run_extend_items (bindItem : BindItem) (hb : s.LinkedList b vs)
    (hall : (appendAll bindItem a vs).run s = (.ok (), s')) :
    (extend bindItem a (.node b)).run s = (requireEnd a (.node b) vs).run s' := by
  obtain ⟨n, hn, hbody, -⟩ := hb
  have helements : (elements (.node b)).run s = (.ok vs, s) := by
    rw [elements, run_bind (run_node hn), hbody]
    rfl
  rw [extend, extendEach, run_bind helements, run_bind hall]
  nofun

/-- A list is extended by a list, by name or as an operator. As many turns as the other list has items
append these items. With them it is done, unless the two are one list with an item: whatever number of
turns it has taken, there is a next one then. -/
theorem run_extend_list (bindItem : BindItem) (ha : s.LinkedList a us) (hopen : s.Extendable a)
    (hb : s.LinkedList b vs) (hvs : ∀ v ∈ vs, s.Adoptable v) {op : ListOperation}
    (hop : op = .extend (.node b) ∨ op = .grow (.node b)) :
    ∃ s', Turns bindItem a b 0 s vs.length s' ∧ s'.LinkedList a (us ++ vs) ∧
      (a ≠ b ∨ vs = [] → (op.run bindItem a).run s = (.ok .null, s') ∧
        (turn bindItem a b vs.length).run s' = (.ok false, s')) ∧
      (a = b → vs ≠ [] → (op.run bindItem a).run s = (.error .endless, s') ∧
        ∀ k, ∃ s'' more, Turns bindItem a b 0 s k s'' ∧ more.length = k ∧
          s''.LinkedList a (us ++ more)) := by
  have hitems : s.LinkedList b ([] ++ vs ++ []) := by rwa [List.append_nil]
  obtain ⟨s', hall, ha', hretains, hturns⟩ := run_appendAll_turns bindItem [] ha hopen hitems hvs
  have hextend := run_extend_items bindItem hb hall
  have hnamed {α : Type} (x : StoreM α) : (named a "extend" x).run s = x.run s := by
    obtain ⟨n, hn, hfree⟩ := hopen
    exact run_named_free hn (hfree _ (by decide)) x
  refine ⟨s', hturns, ha', fun hne => ⟨?_, ?_⟩, ?_⟩
  · rw [run_requireEnd_other hne] at hextend
    rcases hop with rfl | rfl
    · exact (hnamed _).trans (run_bind hextend _)
    · exact run_bind ((hnamed _).trans hextend) _
  · by_cases hab : b = a
    · subst hab
      obtain rfl : vs = [] := hne.resolve_left (not_not_intro rfl)
      obtain rfl := ha.unique hb
      exact run_turn_end bindItem ha' (Nat.le_refl _)
    · exact run_turn_end bindItem (hretains.list hb hab) (Nat.le_refl _)
  · rintro rfl hne
    obtain rfl := ha.unique hb
    rw [run_requireEnd_self ha' hne] at hextend
    refine ⟨?_, fun k => exists_turns bindItem k 0 ha hopen hvs (List.length_pos_iff.mpr hne)⟩
    rcases hop with rfl | rfl
    · exact (hnamed _).trans (run_bind_error hextend _)
    · exact run_bind_error ((hnamed _).trans hextend) _

def listsStore : Store where
  nodes := #[
    { body := .list [.scalar (.int 1)], form := .linked },
    { body := .list [.node 2, .scalar (.int 7)], form := .linked },
    { body := .map [], form := .linked, parent := some 1 }]

/-- The first list is extended by the second one, and then it would be by itself. -/
theorem run_extend_list_lists :
    let bindItem : BindItem := fun _ v => return v
    listsStore.LinkedList 0 [.scalar (.int 1)] ∧ listsStore.Extendable 0 ∧
      listsStore.LinkedList 1 [.node 2, .scalar (.int 7)] ∧ listsStore.Adoptable (.node 2) ∧
      (∃ s', ((ListOperation.extend (.node 1)).run bindItem 0).run listsStore = (.ok .null, s') ∧
        s'.LinkedList 0 [.scalar (.int 1), .node 2, .scalar (.int 7)]) ∧
      (∃ s', ((ListOperation.grow (.node 0)).run bindItem 0).run listsStore =
        (.error .endless, s')) ∧
      ∀ k, ∃ s' more, Turns bindItem 0 0 0 listsStore k s' ∧ more.length = k ∧
        s'.LinkedList 0 (.scalar (.int 1) :: more) := by
  intro bindItem
  have hfirst : listsStore.LinkedList 0 [.scalar (.int 1)] := ⟨_, rfl, rfl, rfl⟩
  have hopen : listsStore.Extendable 0 := ⟨_, rfl, fun _ _ => rfl⟩
  have hsecond : listsStore.LinkedList 1 [.node 2, .scalar (.int 7)] := ⟨_, rfl, rfl, rfl⟩
  have hmap : listsStore.Adoptable (.node 2) := ⟨_, rfl, trivial, rfl⟩
  obtain ⟨s', -, hitems, hdone, -⟩ :=
    run_extend_list bindItem hfirst hopen hsecond (by simpa [Adoptable] using hmap) (.inl rfl)
  obtain ⟨s'', -, -, -, hself⟩ :=
    run_extend_list bindItem hfirst hopen hfirst (by simp [Adoptable]) (.inr rfl)
  obtain ⟨hendless, hturns⟩ := hself rfl (by simp)
  exact ⟨hfirst, hopen, hsecond, hmap, ⟨s', (hdone (.inl (by simp))).1, hitems⟩, ⟨s'', hendless⟩,
    hturns⟩

end ListNode
end Exemplar
