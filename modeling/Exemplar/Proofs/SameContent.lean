import Exemplar.Proofs.Contents
import Exemplar.Proofs.Tables

/-! Storing content. A value that a linked container takes in is copied where it is plain and linked
where it is not, and has the same content behind; so an entry of a map can be replaced by a value of the
content that it had without changing the content of the map. -/
namespace Exemplar

namespace Store
open StoreM Json

/-- A container that another one can take in: a plain one, of which it gets a copy, or one that can be
linked, because nothing stands in the place of the operation that links it. -/
def Fits (s : Store) (r : Ref) : Prop :=
  ∃ n, s.get? r = some n ∧
    ((n.form == .plain) = true ∨ n.form.Links ∧ Assoc.has n.attributes linkOperation = false)

variable {s s' : Store} {P Q : Ref → Prop} {same : Ref → Prop} {v : Value} {j : Json} {r m : Ref}
  {n : Node} {p : Scalar → Prop} {E : StoreFault → Store → Prop}

theorem Retains.fits (h : s.Retains same s') (hr : s.Fits r) : s'.Fits r := by
  obtain ⟨n, hn, hfits⟩ := hr
  obtain ⟨n', hn', hform, hset, -⟩ := h r n hn
  refine ⟨n', hn', ?_⟩
  rw [hform, hset linkOperation (by decide)]
  exact hfits

theorem Retains.found (h : s.Retains same s') (hn : s.get? r = some n) (hr : same r) :
    ∃ n', s'.get? r = some n' ∧ n'.form = n.form ∧ n'.body = n.body := by
  obtain ⟨n', hn', hform, -, hbody⟩ := h r n hn
  exact ⟨n', hn', hform, hbody hr⟩

theorem Content.retained (h : s.Content P v j) (hretains : s.Retains same s')
    (hpq : ∀ r n, P r → s.get? r = some n → Q r ∧ same r) : s'.Content Q v j := by
  refine Content.later (fun r n hr hn => ?_) j h
  obtain ⟨hq, hsame⟩ := hpq r n hr hn
  obtain ⟨n', hn', -, hbody⟩ := hretains.found hn hsame
  exact ⟨hq, n', hn', hbody⟩

theorem ContentItems.retained {vs : List Value} {js : List Json} (h : s.ContentItems P vs js)
    (hretains : s.Retains same s') (hpq : ∀ r n, P r → s.get? r = some n → Q r ∧ same r) :
    s'.ContentItems Q vs js := by
  refine ContentItems.later (fun r n hr hn => ?_) js h
  obtain ⟨hq, hsame⟩ := hpq r n hr hn
  obtain ⟨n', hn', -, hbody⟩ := hretains.found hn hsame
  exact ⟨hq, n', hn', hbody⟩

theorem ContentEntries.retained {es : Assoc Scalar Value} {js : List (Scalar × Json)}
    (h : s.ContentEntries P es js) (hretains : s.Retains same s')
    (hpq : ∀ r n, P r → s.get? r = some n → Q r ∧ same r) : s'.ContentEntries Q es js := by
  refine ContentEntries.later (fun r n hr hn => ?_) js h
  obtain ⟨hq, hsame⟩ := hpq r n hr hn
  obtain ⟨n', hn', -, hbody⟩ := hretains.found hn hsame
  exact ⟨hq, n', hn', hbody⟩

theorem Retains.size (h : s.Retains same s') : s.nodes.size ≤ s'.nodes.size := by
  refine Nat.le_of_not_lt fun hlt => ?_
  obtain ⟨n', hn', -⟩ := h s'.nodes.size _ (Array.getElem?_eq_getElem hlt)
  exact Nat.lt_irrefl _ (get?_lt hn')

theorem retains_add (s : Store) (n : Node) (same : Ref → Prop) : s.Retains same (s.add n).2 :=
  fun _ q hq => ⟨q, by rw [get?_add_lt (get?_lt hq), hq], rfl, fun _ _ => rfl, fun _ => rfl⟩

/-- A container gets another content, and all else is retained. -/
theorem retains_body (s : Store) (m : Ref) (b : Body) :
    s.Retains (· ≠ m) (s.modify m fun n => { n with body := b }) :=
  retains_modify s m (fun _ => rfl) (fun _ _ _ => rfl) fun _ hne => absurd rfl hne

/-- What is kept of all that is not a new container is kept of all that was there. -/
theorem Retains.of_added (h : (s.add n).2.Retains (· ≠ s.nodes.size) s') :
    s.Retains (fun _ => True) s' := by
  intro r q hq
  have hlt := get?_lt hq
  have hq' : (s.add n).2.get? r = some q := by rw [get?_add_lt hlt, hq]
  obtain ⟨n', hn', hform, hset, hbody⟩ := h r q hq'
  exact ⟨n', hn', hform, hset, fun _ => hbody (Nat.ne_of_lt hlt)⟩

/-- Linking a container changes links only, and is refused only by one that does not fit. -/
theorem ends_link (hn : s.get? r = some n) (parent : Option Ref) :
    Ends (link r parent) s (fun _ s' => s.Retains (fun _ => True) s')
      fun _ s' => s.Retains (fun _ => True) s' ∧ ¬ s.Fits r := by
  have hfits : s.Fits r → (n.form == .plain) = true ∨
      n.form.Links ∧ Assoc.has n.attributes linkOperation = false := by
    rintro ⟨n', hn', hfits⟩
    rwa [Option.some.inj (hn.symm.trans hn')]
  have hkept : s.Retains (fun _ => True) s := .refl s _
  refine ends_bind (run_node hn) ?_
  split
  · exact ends_pure hkept
  · next hform =>
    refine ends_throw ⟨hkept, fun h => ?_⟩
    rcases hfits h with hplain | ⟨hlinks, -⟩
    · rw [hform] at hplain
      cases hplain
    · rw [hform] at hlinks
      exact hlinks
  · next hplain hsealed =>
    cases hset : Assoc.has n.attributes linkOperation with
    | true =>
      refine ends_bind (run_node hn) ?_
      rw [hset]
      refine ends_throw ⟨hkept, fun h => ?_⟩
      rcases hfits h with h | ⟨-, hfree⟩
      · exact hplain (eq_of_beq h)
      · rw [hset] at hfree
        cases hfree
    | false =>
      rw [Ends, run_named_free hn hset]
      exact retains_modify s r (fun _ => rfl)
        (fun n name hne => Assoc.has_erase n.attributes hne) fun _ _ => rfl

theorem ends_link_fit (hn : s.get? r = some n) (hfits : s.Fits r) (parent : Option Ref) :
    Ends (link r parent) s (fun _ s' => s.Retains (fun _ => True) s') E :=
  (ends_link hn parent).imp_error fun _ _ hs' => (hs'.2 hfits).elim

theorem ne_of_holdable {q : Ref} (hP : ∀ r, P r → r < m) (hm : m < s.nodes.size)
    (hq : P q ∨ s.nodes.size ≤ q) : q ≠ m := by
  rcases hq with hq | hq
  · exact Nat.ne_of_lt (hP q hq)
  · exact Nat.ne_of_gt (Nat.lt_of_lt_of_le hm hq)

theorem le_of_added {q : Ref} (h : (s.add n).2.nodes.size ≤ q) : s.nodes.size ≤ q := by
  rw [size_add] at h
  exact Nat.le_of_succ_le h

/-- A value was taken in: what was there is retained, and the content is of what was there or new. -/
def Took (s : Store) (P : Ref → Prop) (v : Value) (j : Json) (s' : Store) : Prop :=
  s.Retains (fun _ => True) s' ∧ s'.Content (fun r => P r ∨ s.nodes.size ≤ r) v j

/-- Taking in was given up, at a container that does not fit. -/
def Refused (s : Store) (same P : Ref → Prop) (s' : Store) : Prop :=
  s.Retains same s' ∧ ∃ r, P r ∧ ¬ s.Fits r

theorem Refused.after {s₁ : Store} (h : s₁.Refused same P s') (hretains : s.Retains same s₁) :
    s.Refused same P s' := by
  obtain ⟨hrest, r, hr, hunfit⟩ := h
  exact ⟨hretains.trans hrest, r, hr, fun hfits => hunfit (hretains.fits hfits)⟩

theorem Refused.mono {same' : Ref → Prop} (h : s.Refused same P s') (hsame : ∀ r, same' r → same r) :
    s.Refused same' P s' :=
  ⟨h.1.mono hsame, h.2⟩

theorem Refused.of_added (h : (s.add n).2.Refused (· ≠ s.nodes.size) P s') :
    s.Refused (fun _ => True) P s' := by
  obtain ⟨hretains, r, hr, hunfit⟩ := h
  refine ⟨hretains.of_added, r, hr, fun hfits => hunfit ?_⟩
  exact (retains_add s n fun _ => True).fits hfits

/-- A container that was there is linked, and is its content still. -/
theorem ends_linkOld (hn : s.get? r = some n) (hr : P r) (h : s.Content P (.node r) j)
    (parent : Option Ref) :
    Ends (do link r parent; return Value.node r : StoreM Value) s (fun v' s' => s.Took P v' j s')
      fun _ s' => s.Refused (fun _ => True) P s' := by
  refine ((ends_link hn parent).imp_error fun _ s' hs' => ?_).bind fun _ s' hs' => ?_
  · exact ⟨hs'.1, r, hr, hs'.2⟩
  · exact ends_pure ⟨hs', h.retained hs' fun _ _ hq _ => ⟨.inl hq, trivial⟩⟩

/-- A new container that got its content is linked. -/
theorem ends_linkNew {s₁ : Store} {b : Body}
    (hretains : (s.add { body := b, form := .linked }).2.Retains (· ≠ s.nodes.size) s₁)
    (h : s₁.Content (fun r => P r ∨ s.nodes.size ≤ r) (.node s.nodes.size) j) (parent : Option Ref) :
    Ends (do link s.nodes.size parent; return Value.node s.nodes.size : StoreM Value) s₁
      (fun v' s' => s.Took P v' j s') E := by
  have hmade : (s.add { body := b, form := .linked }).2.get? s.nodes.size =
      some { body := b, form := .linked } := by
    rw [get?_add, if_pos rfl]
  obtain ⟨n, hn, -⟩ := hretains _ _ hmade
  have hfits : s₁.Fits s.nodes.size := hretains.fits ⟨_, hmade, .inr ⟨trivial, rfl⟩⟩
  refine (ends_link_fit hn hfits parent).bind fun _ s₂ hs₂ => ends_pure ⟨?_, ?_⟩
  · exact (hretains.trans (hs₂.mono fun _ _ => trivial)).of_added
  · exact h.retained hs₂ fun _ _ hq _ => ⟨hq, trivial⟩

mutual
/-- A value whose content is a document is taken in by a copy where it is plain, and as it is where it
is not. -/
theorem Content.ends_adopt (fuel : Nat) (parent : Option Ref) {s : Store} {v : Value}
    (hP : ∀ r, P r → r < s.nodes.size) :
    (j : Json) → j.IsDocument p → j.depth < fuel → s.Content P v j →
      Ends (adopt fuel v parent) s (fun v' s' => s.Took P v' j s') fun _ s' =>
        s.Refused (fun _ => True) P s'
  | .scalar a, _, hfuel, h => by
    obtain ⟨fuel, rfl⟩ := Nat.exists_eq_add_one_of_ne_zero (Nat.ne_of_gt (Nat.zero_lt_of_lt hfuel))
    have hends : Ends (pure v : StoreM Value) s (fun v' s' => s.Took P v' (.scalar a) s')
        fun _ s' => s.Refused (fun _ => True) P s' :=
      ends_pure ⟨.refl s _, h⟩
    rcases h with rfl | ⟨-, mark, rfl⟩ <;> exact hends
  | .list js, .list parts, hfuel, h => by
    obtain ⟨fuel, rfl⟩ := Nat.exists_eq_add_one_of_ne_zero (Nat.ne_of_gt (Nat.zero_lt_of_lt hfuel))
    obtain ⟨r, n, vs, rfl, hr, hn, hbody, hitems⟩ := id h
    rw [adopt]
    refine ends_bind (run_node hn) ?_
    split
    · rw [hbody]
      let made : Node := { body := .list [], form := .linked }
      have hmade : (s.add made).2.get? s.nodes.size = some made := by rw [get?_add, if_pos rfl]
      have hitems' : (s.add made).2.ContentItems P vs js :=
        hitems.retained (retains_add s made fun _ => True) fun _ _ hq _ => ⟨hq, trivial⟩
      have hstore := ContentItems.ends_storeItems hP js parts (Nat.lt_of_succ_lt_succ hfuel) hmade rfl
        hitems'
      refine ends_bind (run_add s made) ?_
      refine (hstore.imp_error fun _ _ hs' => hs'.of_added).bind fun _ s₁ hs₁ => ?_
      obtain ⟨hretains, n', vs', hl, hbody', hvs'⟩ := hs₁
      refine ends_linkNew (j := .list js) hretains
        ⟨_, n', vs', rfl, .inr (Nat.le_refl _), hl, hbody', ?_⟩ parent
      exact hvs'.retained (.refl s₁ fun _ => True) fun _ _ hq _ => ⟨hq.imp_right le_of_added, trivial⟩
    · exact ends_linkOld hn hr h parent
  | .map js, .map names once parts, hfuel, h => by
    obtain ⟨fuel, rfl⟩ := Nat.exists_eq_add_one_of_ne_zero (Nat.ne_of_gt (Nat.zero_lt_of_lt hfuel))
    obtain ⟨r, n, es, rfl, hr, hn, hbody, hentries⟩ := id h
    rw [adopt]
    refine ends_bind (run_node hn) ?_
    split
    · rw [hbody]
      let made : Node := { body := .map [], form := .linked }
      have hmade : (s.add made).2.get? s.nodes.size = some made := by rw [get?_add, if_pos rfl]
      have hentries' : (s.add made).2.ContentEntries P es js :=
        hentries.retained (retains_add s made fun _ => True) fun _ _ hq _ => ⟨hq, trivial⟩
      have hstore := ContentEntries.ends_storeEntries hP js (pairwise_keys names once) parts
        (Nat.lt_of_succ_lt_succ hfuel) hmade rfl (List.forall_mem_nil _) hentries'
      refine ends_bind (run_add s made) ?_
      refine (hstore.imp_error fun _ _ hs' => hs'.of_added).bind fun _ s₁ hs₁ => ?_
      obtain ⟨hretains, n', es', hm, hbody', hes'⟩ := hs₁
      refine ends_linkNew (j := .map js) hretains
        ⟨_, n', es', rfl, .inr (Nat.le_refl _), hm, hbody', ?_⟩ parent
      exact hes'.retained (.refl s₁ fun _ => True) fun _ _ hq _ => ⟨hq.imp_right le_of_added, trivial⟩
    · exact ends_linkOld hn hr h parent
theorem ContentItems.ends_storeItems {fuel : Nat} {l : Ref} {n : Node} {s : Store}
    {done vs : List Value} (hP : ∀ r, P r → r < l) :
    (js : List Json) → (∀ j ∈ js, j.IsDocument p) → itemsDepth js < fuel →
      s.get? l = some n → n.body = .list done → s.ContentItems P vs js →
      Ends (storeItems (fun v => adopt fuel v (some l)) l vs) s
        (fun _ s' => s.Retains (· ≠ l) s' ∧ ∃ n' vs', s'.get? l = some n' ∧
          n'.body = .list (done ++ vs') ∧ s'.ContentItems (fun r => P r ∨ s.nodes.size ≤ r) vs' js)
        fun _ s' => s.Refused (· ≠ l) P s'
  | [], _, _, hl, hbody, h => by
    obtain rfl : vs = [] := h
    exact ends_pure ⟨.refl s _, n, [], hl, by rw [List.append_nil, hbody], rfl⟩
  | j :: js, hj, hfuel, hl, hbody, h => by
    obtain ⟨v, rest, rfl, hv, hrest⟩ := h
    rw [itemsDepth] at hfuel
    obtain ⟨hj, hjs⟩ := List.forall_mem_cons.mp hj
    have hsize := get?_lt hl
    have hadopt := Content.ends_adopt fuel (some l)
      (fun r hr => Nat.lt_trans (hP r hr) hsize) j hj (by omega) hv
    rw [storeItems]
    refine (hadopt.imp_error fun _ s' hs' => hs'.mono fun _ _ => trivial).bind fun v' s₁ hs₁ => ?_
    obtain ⟨hretains, hv'⟩ := hs₁
    obtain ⟨n₁, hl₁, -, hbody₁⟩ := hretains.found hl trivial
    let s₂ := s₁.modify l fun n => { n with body := .list (done ++ [v']) }
    have hwrite : s₁.Retains (· ≠ l) s₂ := retains_body s₁ l _
    have hretains₂ : s.Retains (· ≠ l) s₂ := (hretains.mono fun _ _ => trivial).trans hwrite
    have hl₂ : s₂.get? l = some { n₁ with body := .list (done ++ [v']) } := get?_modify_self hl₁ _
    have hrest₂ : s₂.ContentItems P rest js :=
      hrest.retained hretains₂ fun r _ hr _ => ⟨hr, Nat.ne_of_lt (hP r hr)⟩
    refine ends_bind (run_items hl₁ (hbody₁.trans hbody)) (ends_bind (run_change l _ s₁) ?_)
    refine (ContentItems.ends_storeItems hP js hjs (by omega) hl₂ rfl hrest₂).imp
      (fun _ s' hs' => ?_) fun _ s' hs' => hs'.after hretains₂
    obtain ⟨hretains', n', vs', hl', hbody', hvs'⟩ := hs'
    refine ⟨hretains₂.trans hretains', n', v' :: vs', hl', ?_, v', vs', rfl, ?_, ?_⟩
    · rw [hbody', List.append_assoc, List.singleton_append]
    · exact hv'.retained (hwrite.trans hretains') fun r _ hr _ =>
        ⟨hr, ne_of_holdable hP hsize hr⟩
    · exact hvs'.retained (.refl s' fun _ => True) fun r _ hr _ =>
        ⟨hr.imp_right (Nat.le_trans hretains₂.size), trivial⟩
theorem ContentEntries.ends_storeEntries {fuel : Nat} {m : Ref} {n : Node} {s : Store}
    {done es : Assoc Scalar Value} (hP : ∀ r, P r → r < m) :
    (js : List (Scalar × Json)) → js.Pairwise (fun e e' => (e.1 == e'.1) = false) →
      (∀ e ∈ js, e.2.IsDocument p) → entriesDepth js < fuel → s.get? m = some n →
      n.body = .map done → (∀ e ∈ done, ∀ e' ∈ js, (e.1 == e'.1) = false) →
      s.ContentEntries P es js →
      Ends (storeEntries (fun v => adopt fuel v (some m)) m es) s
        (fun _ s' => s.Retains (· ≠ m) s' ∧ ∃ n' es', s'.get? m = some n' ∧
          n'.body = .map (done ++ es') ∧ s'.ContentEntries (fun r => P r ∨ s.nodes.size ≤ r) es' js)
        fun _ s' => s.Refused (· ≠ m) P s'
  | [], _, _, _, hm, hbody, _, h => by
    obtain rfl : es = [] := h
    exact ends_pure ⟨.refl s _, n, [], hm, by rw [List.append_nil, hbody], rfl⟩
  | (k, j) :: js, hkeys, hj, hfuel, hm, hbody, hnew, h => by
    obtain ⟨v, rest, rfl, hv, hrest⟩ := h
    rw [entriesDepth] at hfuel
    obtain ⟨hj, hjs⟩ := List.forall_mem_cons.mp hj
    obtain ⟨hfirst, hkeys⟩ := List.pairwise_cons.mp hkeys
    have hsize := get?_lt hm
    have hadopt := Content.ends_adopt fuel (some m)
      (fun r hr => Nat.lt_trans (hP r hr) hsize) j hj (by omega) hv
    rw [storeEntries]
    refine (hadopt.imp_error fun _ s' hs' => hs'.mono fun _ _ => trivial).bind fun v' s₁ hs₁ => ?_
    obtain ⟨hretains, hv'⟩ := hs₁
    obtain ⟨n₁, hm₁, -, hbody₁⟩ := hretains.found hm trivial
    have hinsert : done.insert k v' = done ++ [(k, v')] :=
      Assoc.insert_new (fun e he => hnew e he _ List.mem_cons_self) v'
    let s₂ := s₁.modify m fun n => { n with body := .map (done ++ [(k, v')]) }
    have hwrite : s₁.Retains (· ≠ m) s₂ := retains_body s₁ m _
    have hretains₂ : s.Retains (· ≠ m) s₂ := (hretains.mono fun _ _ => trivial).trans hwrite
    have hm₂ : s₂.get? m = some { n₁ with body := .map (done ++ [(k, v')]) } :=
      get?_modify_self hm₁ _
    have hrest₂ : s₂.ContentEntries P rest js :=
      hrest.retained hretains₂ fun r _ hr _ => ⟨hr, Nat.ne_of_lt (hP r hr)⟩
    have hnew₂ : ∀ e ∈ done ++ [(k, v')], ∀ e' ∈ js, (e.1 == e'.1) = false := by
      refine List.forall_mem_append.mpr ⟨fun e he e' he' => ?_, List.forall_mem_singleton.mpr hfirst⟩
      exact hnew e he e' (List.mem_cons_of_mem _ he')
    have hrun : (writeEntry m k v').run s₁ = (.ok (), s₂) := by
      rw [writeEntry, run_bind (run_entries hm₁ (hbody₁.trans hbody)), hinsert]
      rfl
    refine ends_bind hrun ?_
    refine (ContentEntries.ends_storeEntries hP js hkeys hjs (by omega) hm₂ rfl hnew₂ hrest₂).imp
      (fun _ s' hs' => ?_) fun _ s' hs' => hs'.after hretains₂
    obtain ⟨hretains', n', es', hm', hbody', hes'⟩ := hs'
    refine ⟨hretains₂.trans hretains', n', (k, v') :: es', hm', ?_, v', es', rfl, ?_, ?_⟩
    · rw [hbody', List.append_assoc, List.singleton_append]
    · exact hv'.retained (hwrite.trans hretains') fun r _ hr _ =>
        ⟨hr, ne_of_holdable hP hsize hr⟩
    · exact hes'.retained (.refl s' fun _ => True) fun r _ hr _ =>
        ⟨hr.imp_right (Nat.le_trans hretains₂.size), trivial⟩
end

/-- What is found under a key has a content among those of the entries. -/
theorem ContentEntries.found {es : Assoc Scalar Value} {k : Scalar} {js : List (Scalar × Json)}
    (h : s.ContentEntries P es js) (hk : es.get? k = some v) : ∃ e ∈ js, s.Content P v e.2 := by
  induction js generalizing es with
  | nil =>
    obtain rfl : es = [] := h
    cases hk
  | cons e js ih =>
    obtain ⟨v₁, rest, rfl, hv₁, hrest⟩ := h
    rw [Assoc.get?] at hk
    split at hk
    · obtain rfl := Option.some.inj hk
      exact ⟨e, List.mem_cons_self, hv₁⟩
    · obtain ⟨e', he', hv⟩ := ih hrest hk
      exact ⟨e', List.mem_cons_of_mem e he', hv⟩

/-- An entry is replaced by a value of the same content. -/
theorem ContentEntries.insert {es : Assoc Scalar Value} {k : Scalar} {js : List (Scalar × Json)}
    {old : Value} (h : s.ContentEntries P es js) (hk : es.get? k = some old) (hold : s.Content Q old j)
    (hv : s.Content P v j) : s.ContentEntries P (es.insert k v) js := by
  induction js generalizing es with
  | nil =>
    obtain rfl : es = [] := h
    cases hk
  | cons e js ih =>
    obtain ⟨v₁, rest, rfl, hv₁, hrest⟩ := h
    rw [Assoc.get?] at hk
    rw [Assoc.insert]
    split at hk
    · next hsame =>
      obtain rfl := Option.some.inj hk
      rw [if_pos hsame]
      obtain rfl := Content.unique _ _ hold hv₁
      exact ⟨v, rest, rfl, hv, hrest⟩
    · next hother =>
      rw [if_neg hother]
      exact ⟨v₁, _, rfl, hv₁, ih hrest hk⟩

/-- A map in which an entry is replaced by a value of the same content has the content that it had. -/
theorem Content.replaced {es : Assoc Scalar Value} {k : Scalar} {js : List (Scalar × Json)}
    {old : Value} {R : Ref → Prop} (hm : s.get? m = some n) (hbody : n.body = .map es)
    (hmap : s.Content P (.node m) (.map js)) (hentry : es.get? k = some old)
    (hold : s.Content Q old j) (hv : s.Content R v j) :
    (s.modify m fun n => { n with body := .map (es.insert k v) }).Content (fun _ => True) (.node m)
      (.map js) := by
  obtain ⟨r, n', es', hr, -, hn', hbody', hentries⟩ := id hmap
  obtain rfl := Value.node.inj hr
  obtain rfl := Option.some.inj (hm.symm.trans hn')
  obtain rfl := Body.map.inj (hbody.symm.trans hbody')
  -- What an entry holds is smaller than the map, so the map does not come up in it.
  have hlt : sizeOf js < sizeOf (Json.map js) := by simp
  have hsmall : sizeOf j < sizeOf (Json.map js) := by
    obtain ⟨e, he, hold'⟩ := hentries.found hentry
    obtain rfl := Content.unique _ _ hold hold'
    have hmem := List.sizeOf_lt_of_mem he
    have hpart : sizeOf e.2 < sizeOf e := by
      rw [Prod.mk.sizeOf_spec]
      omega
    omega
  have hwrite := retains_body s m (.map (es.insert k v))
  have helsewhere {T : Ref → Prop} : ∀ r q, T r ∧ r ≠ m → s.get? r = some q → True ∧ r ≠ m :=
    fun _ _ hr _ => ⟨trivial, hr.2⟩
  have hentries' := (ContentEntries.avoids hmap js hlt hentries).retained hwrite helsewhere
  have hold' := (Content.avoids hmap j hsmall hold).retained hwrite helsewhere
  have hv' := (Content.avoids hmap j hsmall hv).retained hwrite helsewhere
  exact ⟨m, _, _, rfl, trivial, get?_modify_self hm _, rfl, hentries'.insert hentry hold' hv'⟩

/-- A linked container takes a value in. -/
theorem ends_accept (hm : s.get? m = some n) (hform : (n.form == .plain) = false)
    (hv : s.Content P v j) (hj : j.IsDocument p) :
    Ends (accept m v) s (fun v' s' => s.Took P v' j s') fun _ s' => s.Refused (fun _ => True) P s' := by
  have hknown : s.Content (fun r => P r ∧ r < s.nodes.size) v j :=
    hv.retained (.refl s fun _ => True) fun r _ hr hn => ⟨⟨hr, get?_lt hn⟩, trivial⟩
  have hdepth := hv.depth_lt
  rw [Ends, run_accept hm hform]
  refine (Content.ends_adopt (s.nodes.size + 2) (some m) (fun r hr => hr.2) j hj
    (by omega) hknown).imp (fun v' s' hs' => ?_) fun _ s' hs' => ?_
  · exact ⟨hs'.1, hs'.2.mono fun r hr => hr.imp_left And.left⟩
  · obtain ⟨hretains, r, hr, hunfit⟩ := hs'
    exact ⟨hretains, r, hr.1, hunfit⟩

end Store
end Exemplar
