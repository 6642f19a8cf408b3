import Exemplar.Proofs.Registration

/-! The history of a catalogue: what was registered in it, in order. The names, the types and the
lists of the sources all follow from the history, whatever was replaced on the way. -/
namespace Exemplar.Catalogue
open Inference

/-- What is registered of some definitions: all before the first that cannot be announced. -/
def admitted (console : Text.Console) (c : Catalogue) : List Definition → List Definition
  | [] => []
  | d :: ds =>
    match c.announce console d with
    | .ok () => d :: (c.register d).admitted console ds
    | .error _ => []

def admittedOf (options : Options) (c : Catalogue) (d : Document) : List Definition :=
  c.admitted options.console (d.definitions options) ++
    match c.registerAll options.console (d.definitions options) with
    | (.ok (), c) => c.admitted options.console (c.missingRoot? d).toList
    | (.error _, _) => []

/-- Take in documents in order. One that fails leaves what it registered before. -/
def addDocuments (options : Options) (c : Catalogue) (docs : List Document) : Catalogue :=
  docs.foldl (fun c d => (c.addDocument options d).2) c

def history (options : Options) (c : Catalogue) : List Document → List Definition
  | [] => []
  | d :: docs => c.admittedOf options d ++ (c.addDocument options d).2.history options docs

variable {options : Options} {c : Catalogue} {d e : Definition} {ds log : List Definition}

theorem snd_registerAll (console : Text.Console) (c : Catalogue) (ds : List Definition) :
    (c.registerAll console ds).2 = (c.admitted console ds).foldl register c := by
  induction ds generalizing c with
  | nil => rfl
  | cons d ds ih =>
    rw [registerAll, admitted]
    cases c.announce console d with
    | ok => exact ih _
    | error f => rfl

theorem admitted_subset (console : Text.Console) (c : Catalogue) (ds : List Definition) :
    ∀ d ∈ c.admitted console ds, d ∈ ds := by
  induction ds generalizing c with
  | nil => exact List.forall_mem_nil _
  | cons d ds ih =>
    intro e he
    rw [admitted] at he
    split at he
    · rcases List.mem_cons.mp he with rfl | he
      · exact List.mem_cons_self
      · exact List.mem_cons_of_mem d (ih _ e he)
    · cases he

/-- Where all definitions are registered, all are admitted. -/
theorem foldl_register_of_ok {console : Text.Console} {c' : Catalogue}
    (h : c.registerAll console ds = (.ok (), c')) :
    c.admitted console ds = ds ∧ ds.foldl register c = c' := by
  induction ds generalizing c with
  | nil =>
    cases h
    exact ⟨rfl, rfl⟩
  | cons e ds ih =>
    rw [registerAll] at h
    rw [admitted]
    cases hannounced : c.announce console e with
    | error f =>
      rw [hannounced] at h
      cases h
    | ok =>
      rw [hannounced] at h
      obtain ⟨hds, hlast⟩ := ih h
      exact ⟨congrArg (e :: ·) hds, hlast⟩

theorem madeOf_admittedOf (options : Options) (c : Catalogue) (d : Document) :
    ∀ e ∈ c.admittedOf options d, MadeOf (d.markers options) d.origin d.name d.sample e := by
  intro e he
  rcases List.mem_append.mp he with he | he
  · exact madeOf_definitions options d e (admitted_subset _ c _ e he)
  · split at he
    · exact madeOf_missingRoot _ _ d e (admitted_subset _ _ _ e he)
    · cases he

/-- What is registered of documents is made of one of them. -/
theorem madeOf_history (options : Options) (c : Catalogue) (docs : List Document) :
    ∀ e ∈ c.history options docs, ∃ d ∈ docs,
      MadeOf (d.markers options) d.origin d.name d.sample e := by
  induction docs generalizing c with
  | nil => exact List.forall_mem_nil _
  | cons d docs ih =>
    intro e he
    rcases List.mem_append.mp he with he | he
    · exact ⟨d, List.mem_cons_self, madeOf_admittedOf options c d e he⟩
    · obtain ⟨d', hd', hmade⟩ := ih _ e he
      exact ⟨d', List.mem_cons_of_mem d hd', hmade⟩

/-- A document is registered definition by definition; then its root gets its diagnostics, unless a
registration failed. -/
theorem exists_addDocument (options : Options) (c : Catalogue) (d : Document) :
    ∃ errors, (∀ x ∈ errors, x ∈ d.errors) ∧ (c.addDocument options d).2 =
      ((c.admittedOf options d).foldl register c).addErrors d.name errors := by
  have hall := c.snd_registerAll options.console (d.definitions options)
  rw [admittedOf, addDocument, List.foldl_append, ← hall]
  cases hrun : c.registerAll options.console (d.definitions options) with
  | mk result c₁ =>
    cases result with
    | error f => exact ⟨[], List.forall_mem_nil _, (addErrors_nil c₁ d.name).symm⟩
    | ok =>
      have hroot := c₁.snd_registerAll options.console (c₁.missingRoot? d).toList
      simp only [← hroot]
      cases hlast : c₁.registerAll options.console (c₁.missingRoot? d).toList with
      | mk result c₂ =>
        cases result with
        | error f => exact ⟨[], List.forall_mem_nil _, (addErrors_nil c₂ d.name).symm⟩
        | ok => exact ⟨d.errors, fun _ h => h, rfl⟩

theorem finished_addDocument (options : Options) (c : Catalogue) (d : Document) :
    (c.addDocument options d).2.finished = c.finished := by
  obtain ⟨errors, -, hadded⟩ := c.exists_addDocument options d
  have hall (ds : List Definition) (c : Catalogue) : (ds.foldl register c).finished = c.finished := by
    induction ds generalizing c with
    | nil => rfl
    | cons d ds ih => exact (ih _).trans (finished_register c d)
  rw [hadded]
  exact hall _ c

theorem finished_addDocuments (options : Options) (c : Catalogue) (docs : List Document) :
    (c.addDocuments options docs).finished = c.finished := by
  induction docs generalizing c with
  | nil => rfl
  | cons d docs ih => exact (ih _).trans (finished_addDocument options c d)

/-- What one registration changes. -/
theorem register_eq (c : Catalogue) (d : Definition) : c.register d =
    { types := c.types.insert d.name (c.placed d)
      files := listUnder c.files d.source d.name
      replaced := (c.get? d.name).toList ++ c.replaced
      finished := c.finished } := by
  unfold register placed
  cases c.get? d.name <;> rfl

/-- A definition is what was registered last under its name, and its edition counts what was
registered there before. -/
structure Stands (log : List Definition) (d : Definition) : Prop where
  last : ∃ e, (log.filter fun x => x.name = d.name).getLast? = some e ∧ d.source = e.source ∧
    d.shape = e.shape
  edition : d.edition + 1 = (log.map Definition.name).count d.name

/-- A catalogue and its history. Each name has one type, which was registered last under it, each
source lists what it registered, and the lists hold nothing else. What was replaced is of an earlier
edition than the type of its name. -/
structure Accounts (log : List Definition) (c : Catalogue) : Prop where
  once : (Assoc.keys c.types).Nodup
  stands : ∀ name d, c.get? name = some d → d.name = name ∧ Stands log d
  known : ∀ d ∈ log, ∃ x, c.get? d.name = some x
  replaced : ∀ old ∈ c.replaced, ∃ x, c.get? old.name = some x ∧ old.edition < x.edition
  listed : ∀ source, (c.files.get? source).getD [] =
    (log.filter fun d => d.source = source).map Definition.name
  sources : (Assoc.keys c.files).Nodup ∧ ∀ source ∈ Assoc.keys c.files, ∃ d ∈ log, d.source = source
  lists : (c.files.flatMap Prod.snd).Perm (log.map Definition.name)

theorem accounts_empty : Accounts [] empty where
  once := List.nodup_nil
  stands _ _ h := by cases h
  known := List.forall_mem_nil _
  replaced := List.forall_mem_nil _
  listed _ := rfl
  sources := ⟨List.nodup_nil, List.forall_mem_nil _⟩
  lists := .nil

theorem Accounts.count (h : Accounts log c) {name : String} (hnone : c.get? name = none) :
    (log.map Definition.name).count name = 0 := by
  rw [List.count_eq_zero]
  intro hmem
  obtain ⟨x, hx, rfl⟩ := List.mem_map.mp hmem
  obtain ⟨y, hy⟩ := h.known x hx
  rw [hnone] at hy
  cases hy

theorem Accounts.edition_placed (h : Accounts log c) (hd : d.edition = 0) :
    (c.placed d).edition = (log.map Definition.name).count d.name := by
  unfold placed
  cases hold : c.get? d.name with
  | none => exact hd.trans (h.count hold).symm
  | some old =>
    obtain ⟨hname, hstands⟩ := h.stands _ old hold
    rw [← hname]
    exact hstands.edition

theorem Stands.append (h : Stands log d) (hname : e.name ≠ d.name) : Stands (log ++ [e]) d where
  last := by
    rw [List.filter_append, List.filter_singleton, decide_eq_false hname]
    simpa using h.last
  edition := by
    rw [List.map_append, List.count_append, List.map_singleton, List.count_singleton, h.edition]
    simp [hname]

theorem Accounts.stands_placed (h : Accounts log c) (hd : d.edition = 0) :
    Stands (log ++ [d]) (c.placed d) where
  last := by
    refine ⟨d, ?_, c.source_placed d, c.shape_placed d⟩
    rw [List.filter_append, List.filter_singleton, name_placed, decide_eq_true rfl]
    exact List.getLast?_concat
  edition := by
    rw [name_placed, h.edition_placed hd, List.map_append, List.count_append, List.map_singleton,
      List.count_singleton_self]

theorem flatMap_listUnder (files : Assoc String (List String)) (source name : String) :
    ((listUnder files source name).flatMap Prod.snd).Perm (files.flatMap Prod.snd ++ [name]) := by
  rw [listUnder]
  rcases Assoc.split_at files source with ⟨before, key, names, after, rfl, hget, -, hinsert⟩ |
    ⟨hget, hinsert⟩
  · rw [hinsert, hget, List.flatMap_append, List.flatMap_append, List.flatMap_cons, List.flatMap_cons,
      Option.getD_some, List.append_assoc, List.append_assoc, List.append_assoc]
    exact List.perm_append_comm.append_left names |>.append_left _
  · rw [hinsert, hget, List.flatMap_append]
    exact .refl _

theorem Accounts.register (h : Accounts log c) (hd : d.edition = 0) :
    Accounts (log ++ [d]) (c.register d) where
  once := by
    rw [register_eq]
    exact Assoc.nodup_keys_insert h.once _ _
  stands name x hx := by
    rw [get?_register] at hx
    split at hx
    · next hname =>
      cases hx
      exact ⟨(c.name_placed d).trans hname, h.stands_placed hd⟩
    · next hname =>
      obtain ⟨hx, hstands⟩ := h.stands name x hx
      exact ⟨hx, hstands.append (hx ▸ hname)⟩
  known x hx := by
    rw [get?_register]
    split
    · exact ⟨_, rfl⟩
    · next hname =>
      rcases List.mem_append.mp hx with hx | hx
      · exact h.known x hx
      · exact (hname (List.mem_singleton.mp hx ▸ rfl)).elim
  replaced old hold := by
    rw [register_eq, List.mem_append, Option.mem_toList] at hold
    rw [get?_register]
    have hplaced {x : Definition} (hx : c.get? d.name = some x) :
        (c.placed d).edition = x.edition + 1 := by
      unfold placed
      rw [hx]
    rcases hold with hold | hold
    · rw [(h.stands _ old hold).1, if_pos rfl]
      exact ⟨_, rfl, by rw [hplaced hold]; omega⟩
    · obtain ⟨x, hx, hlt⟩ := h.replaced old hold
      split
      · next hname =>
        rw [← hname] at hx
        exact ⟨_, rfl, by rw [hplaced hx]; omega⟩
      · exact ⟨x, hx, hlt⟩
  listed source := by
    rw [register_eq, listUnder, Assoc.get?_insert, List.filter_append, List.map_append,
      List.filter_singleton]
    split
    · next hsource =>
      rw [Option.getD_some, h.listed, ← hsource, decide_eq_true rfl]
      rfl
    · next hsource =>
      rw [h.listed, decide_eq_false hsource]
      exact (List.append_nil _).symm
  sources := by
    rw [register_eq, listUnder]
    refine ⟨Assoc.nodup_keys_insert h.sources.1 _ _, fun source hsource => ?_⟩
    rcases Assoc.mem_keys_insert_iff.mp hsource with rfl | hsource
    · exact ⟨d, List.mem_append_right _ List.mem_cons_self, rfl⟩
    · obtain ⟨x, hx, hsource⟩ := h.sources.2 source hsource
      exact ⟨x, List.mem_append_left _ hx, hsource⟩
  lists := by
    rw [register_eq, List.map_append, List.map_singleton]
    exact (flatMap_listUnder _ _ _).trans (h.lists.append_right _)

theorem Accounts.addErrors (h : Accounts log c) (name : String) (errors : List Diagnostic) :
    Accounts log (c.addErrors name errors) where
  once := by
    change (Assoc.keys (Assoc.modify _ _ _)).Nodup
    rw [Assoc.keys_modify]
    exact h.once
  stands name' x hx := by
    rw [get?_addErrors] at hx
    split at hx
    · obtain ⟨y, hy, rfl⟩ := Option.map_eq_some_iff.mp hx
      obtain ⟨hname, hlast, hedition⟩ := h.stands name' y hy
      exact ⟨hname, hlast, hedition⟩
    · exact h.stands name' x hx
  known x hx := by
    obtain ⟨y, hy⟩ := h.known x hx
    rw [get?_addErrors, hy]
    split <;> exact ⟨_, rfl⟩
  replaced old hold := by
    obtain ⟨y, hy, hlt⟩ := h.replaced old hold
    rw [get?_addErrors, hy]
    split
    · exact ⟨_, rfl, hlt⟩
    · exact ⟨_, rfl, hlt⟩
  listed := h.listed
  sources := h.sources
  lists := h.lists

theorem Accounts.registerAll (h : Accounts log c) (hds : ∀ d ∈ ds, d.edition = 0) :
    Accounts (log ++ ds) (ds.foldl Catalogue.register c) := by
  induction ds generalizing log c with
  | nil => rwa [List.append_nil]
  | cons d ds ih =>
    obtain ⟨hd, hds⟩ := List.forall_mem_cons.mp hds
    have hrest := ih (h.register hd) hds
    rwa [List.append_assoc] at hrest

theorem Accounts.addDocument (h : Accounts log c) (options : Options) (d : Document) :
    Accounts (log ++ c.admittedOf options d) (c.addDocument options d).2 := by
  obtain ⟨errors, -, hadded⟩ := c.exists_addDocument options d
  rw [hadded]
  exact (h.registerAll fun e he => (madeOf_admittedOf options c d e he).edition).addErrors _ _

theorem Accounts.addDocuments (h : Accounts log c) (options : Options) (docs : List Document) :
    Accounts (log ++ c.history options docs) (c.addDocuments options docs) := by
  induction docs generalizing log c with
  | nil => rwa [history, List.append_nil]
  | cons d docs ih =>
    have hrest := ih (h.addDocument options d)
    rwa [List.append_assoc] at hrest

theorem accounts_addDocuments (options : Options) (docs : List Document) :
    Accounts (empty.history options docs) (empty.addDocuments options docs) :=
  accounts_empty.addDocuments options docs

def Collided (d : Definition) : Prop := ∃ x ∈ d.errors, x.kind = .nameCollision

/-- The types that replaced others say so, and no others do. -/
def Marked (c : Catalogue) : Prop := ∀ name d, c.get? name = some d → (Collided d ↔ 0 < d.edition)

theorem Marked.register (h : Marked c) (hd : d.edition = 0) (herrors : d.errors = []) :
    Marked (c.register d) := by
  intro name x hx
  rw [get?_register] at hx
  split at hx
  · cases hx
    unfold placed
    cases c.get? d.name with
    | none => simp [Collided, hd, herrors]
    | some old =>
      refine ⟨fun _ => Nat.succ_pos _, fun _ => ⟨collision d old, ?_, rfl⟩⟩
      exact List.mem_append_right _ List.mem_cons_self
  · exact h name x hx

theorem Marked.addErrors (h : Marked c) (name : String) {errors : List Diagnostic}
    (hquiet : ∀ x ∈ errors, x.kind ≠ .nameCollision) : Marked (c.addErrors name errors) := by
  intro name' x hx
  rw [get?_addErrors] at hx
  split at hx
  · obtain ⟨y, hy, rfl⟩ := Option.map_eq_some_iff.mp hx
    refine Iff.trans ⟨fun ⟨x, hx, hkind⟩ => ?_, fun ⟨x, hx, hkind⟩ => ?_⟩ (h name' y hy)
    · rcases List.mem_append.mp hx with hx | hx
      · exact ⟨x, hx, hkind⟩
      · exact (hquiet x hx hkind).elim
    · exact ⟨x, List.mem_append_left _ hx, hkind⟩
  · exact h name' x hx

theorem Marked.registerAll (h : Marked c) (hds : ∀ d ∈ ds, d.edition = 0 ∧ d.errors = []) :
    Marked (ds.foldl Catalogue.register c) := by
  induction ds generalizing c with
  | nil => exact h
  | cons d ds ih =>
    obtain ⟨⟨hedition, herrors⟩, hds⟩ := List.forall_mem_cons.mp hds
    exact ih (h.register hedition herrors) hds

theorem Marked.addDocument (h : Marked c) (options : Options) {d : Document}
    (hquiet : ∀ x ∈ d.errors, x.kind ≠ .nameCollision) : Marked (c.addDocument options d).2 := by
  obtain ⟨errors, herrors, hadded⟩ := c.exists_addDocument options d
  rw [hadded]
  refine Marked.addErrors (h.registerAll fun e he => ?_) _ fun x hx => hquiet x (herrors x hx)
  have hmade := madeOf_admittedOf options c d e he
  exact ⟨hmade.edition, hmade.errors⟩

theorem Marked.addDocuments (h : Marked c) (options : Options) {docs : List Document}
    (hquiet : ∀ d ∈ docs, ∀ x ∈ d.errors, x.kind ≠ .nameCollision) :
    Marked (c.addDocuments options docs) := by
  induction docs generalizing c with
  | nil => exact h
  | cons d docs ih =>
    obtain ⟨hd, hdocs⟩ := List.forall_mem_cons.mp hquiet
    exact ih (h.addDocument options hd) hdocs

end Exemplar.Catalogue
