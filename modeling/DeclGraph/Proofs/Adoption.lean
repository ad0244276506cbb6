import DeclGraph.Proofs.Arrivals

/-!
# A merge goes through

Merging two coherent graphs does not break off as long as there are slots for
what comes in, and what it does is kept in a log that holds an arrival for the root
and for everything that is read below it.

Main results:

- Theorem `Graph.exists_step`: bringing in one declaration is one step.
- Theorem `Graph.Log.adopt`: bringing in a forest extends the log by the arrivals
  of the forest.
- Theorem `Graph.exists_log_of_merge`: a merge goes through and leaves a log.
-/

namespace DeclGraph
namespace Graph

/-! ## How many slots a merge fills -/

@[simp]
theorem size_linkBack (g : Graph) (companion : Option DeclId) (id : DeclId) :
    (g.linkBack companion id).size = g.size := by
  cases companion <;> simp [linkBack]

theorem fills_ensureClass (container : DeclId) (name : Name) :
    Build.Fills 1 (ensureClass container name) :=
  Build.fills_checked fun scope g => by split <;> simp

theorem fills_ensureObject (container : DeclId) (name : Name) :
    Build.Fills 1 (ensureObject container name) :=
  Build.fills_checked fun scope g => by split <;> simp

theorem fills_ensurePackage (container : DeclId) (name : Name) :
    Build.Fills 1 (ensurePackage container name) :=
  Build.fills_checked fun scope g => by split <;> simp

theorem fills_addMember (container : DeclId) (decl : Decl) :
    Build.Fills 1 (addMember container decl) :=
  Build.fills_checked fun scope g => by simp

theorem fills_raiseIssued (container : DeclId) (n : UInt32) :
    Build.Fills 0 (raiseIssued container n) :=
  Build.fills_checked fun scope g => by simp

/-- Bringing in a class fills one slot at most. -/
theorem fills_adoptClass (into : DeclId) (incoming : ClassDecl) :
    Build.Fills 1 (adoptClass into incoming) := by
  have hupdate : ∀ id fresh, Build.Fills 0
      (Build.update (modifyClass · id (ClassDecl.absorb · incoming fresh))) := by
    intro id fresh g
    simp [Build.final, Build.update, modifyClass]
  exact Build.fills_bind (Build.fills_read _) fun found =>
    Build.fills_bind (fills_ensureClass into _) fun id =>
      Build.fills_bind (hupdate id _) fun _ => Build.fills_pure id

/-- Bringing in a declaration fills one slot at most, beside those for what is below it. -/
theorem fills_adoptDecl (oldSize : Nat) {n : Nat} {adoptBelow : DeclId → Build Unit}
    (hbelow : ∀ target, Build.Fills n (adoptBelow target)) (decl : Decl) (into : DeclId) :
    Build.Fills (1 + n) (adoptDecl oldSize adoptBelow decl into) := by
  have hcontainer : ∀ {ensure : Build DeclId} (issued : UInt32), Build.Fills 1 ensure →
      Build.Fills (1 + n) (do
        let target ← ensure
        raiseIssued target issued
        adoptBelow target) := fun issued hensure =>
    Build.fills_bind hensure fun target => by
      simpa using Build.fills_bind (fills_raiseIssued target issued) fun _ => hbelow target
  have hleaf : ∀ decl, Build.Fills (1 + n) (discard (addMember into decl)) := fun decl =>
    (Build.fills_bind (fills_addMember into decl) fun _ => Build.fills_pure ()).mono
      (Nat.le_add_right 1 n)
  cases decl with
  | package package => exact hcontainer _ (fills_ensurePackage into _)
  | klass klass => exact hcontainer _ (fills_adoptClass into klass)
  | object object => exact hcontainer _ (fills_ensureObject into _)
  | method method =>
      have hadopt : Build.Fills (0 + (1 + n)) (adoptMethod oldSize into method) := by
        apply Build.fills_bind (Build.fills_read _)
        intro had
        cases had
        · exact hleaf _
        · exact (Build.fills_pure ()).mono (Nat.zero_le _)
      exact hadopt.mono (Nat.le_of_eq (Nat.zero_add _))
  | comment text => exact hleaf _
  | field field => exact hleaf _
  | typeParam tparam => exact hleaf _
  | param param => exact hleaf _

/-- Bringing in a forest fills one slot at most for each of its declarations. -/
theorem fills_adopt (oldSize : Nat) (forest : Forest) (into : DeclId) :
    Build.Fills forest.ids.length (adopt oldSize forest into) := by
  induction forest generalizing into with
  | nil => exact Build.fills_pure ()
  | cons id decl below rest ihBelow ihRest =>
      refine (Build.fills_bind (fills_adoptDecl oldSize ihBelow decl into) fun _ =>
        ihRest into).mono ?_
      simp only [Forest.ids, List.length_cons, List.length_append]
      omega

/-! ## One declaration -/

section OneDeclaration

variable {g : Graph} {into : DeclId} {decl : Decl} {key : Key}

/-- A container that was asked for has the key that it was asked for by. -/
theorem key?_ensured (key : Key) (hg : Coherent g) (hcontainer : (g.key? into).isSome)
    (hkey : key.1.isContainer)
    (hpackage : key.1 = .package → g.kind? into = some .package) :
    (g.ensured into key).2.key? (g.ensured into key).1 = some key := by
  unfold ensured
  cases hlookup : g.lookup into key with
  | some id => exact (hg.lookup_eq_some.mp hlookup).2
  | none =>
      have hfits := fits_newcomer hcontainer hkey hlookup hpackage
      rw [hfits.key? hg, if_pos rfl, newcomer, key?_bare hkey]

/-- Asking for a container and letting it absorb what comes in is one step. -/
theorem step_ensured (hcontainer : (g.key? into).isSome) (hkey : decl.key? = some key)
    (hpackage : key.1 = .package → g.kind? into = some .package) (oldSize : Nat)
    (source : DeclId) :
    Step oldSize g
      ⟨source, decl, into, some (g.ensured into key).1, (g.lookup into key).isNone⟩
      ((g.ensured into key).2.modify (g.ensured into key).1
        (decl.absorb (g.lookup into key).isNone)) := by
  unfold ensured
  cases hlookup : g.lookup into key with
  | some id => exact .joined hkey hlookup
  | none => exact .founded hkey hlookup hcontainer hpackage

theorem modify_modify (g : Graph) (id : DeclId) (first second : Decl → Decl) :
    (g.modify id first).modify id second = g.modify id (second ∘ first) := by
  have hdecls : (g.decls.modify id.index first).modify id.index second =
      g.decls.modify id.index (second ∘ first) := by
    apply Array.ext_getElem?
    intro i
    simp only [Array.getElem?_modify]
    split <;> simp
  simp [modify, hdecls]

section Container

variable (hg : Coherent g) (hcontainer : (g.key? into).isSome) (oldSize : Nat)
  (adoptBelow : DeclId → Build Unit)

include hg

private theorem adoptDecl_package (hkind : g.kind? into = some .package)
    (package : PackageDecl) (fresh : Bool) :
    adoptDecl oldSize adoptBelow (.package package) into g =
      adoptBelow (g.ensured into (.package, package.name)).1
        ((g.ensured into (.package, package.name)).2.modify
          (g.ensured into (.package, package.name)).1 ((Decl.package package).absorb fresh)) := by
  have hmade := key?_ensured (.package, package.name) hg (isSome_key?_of_package hkind)
    rfl fun _ => hkind
  simp only [adoptDecl]
  rw [Build.bind_of_ok (ensurePackage_eq hkind package.name),
    Build.bind_of_ok (raiseIssued_eq (by rw [hmade]; rfl) package.scope.issued)]
  rfl

include hcontainer

private theorem adoptDecl_object (object : ObjectDecl) (fresh : Bool) :
    adoptDecl oldSize adoptBelow (.object object) into g =
      adoptBelow (g.ensured into (.object, object.name)).1
        ((g.ensured into (.object, object.name)).2.modify
          (g.ensured into (.object, object.name)).1 ((Decl.object object).absorb fresh)) := by
  have hmade := key?_ensured (.object, object.name) hg hcontainer rfl (by simp)
  simp only [adoptDecl]
  rw [Build.bind_of_ok (ensureObject_eq hcontainer object.name),
    Build.bind_of_ok (raiseIssued_eq (by rw [hmade]; rfl) object.scope.issued)]
  rfl

private theorem adoptDecl_klass (klass : ClassDecl) :
    adoptDecl oldSize adoptBelow (.klass klass) into g =
      adoptBelow (g.ensured into (.klass, klass.name)).1
        ((g.ensured into (.klass, klass.name)).2.modify
          (g.ensured into (.klass, klass.name)).1
          ((Decl.klass klass).absorb (g.lookup into (.klass, klass.name)).isNone)) := by
  have hmade := key?_ensured (.klass, klass.name) hg hcontainer rfl (by simp)
  have hread : Build.read (find? · .klass into klass.name) g =
      .ok (g.lookup into (.klass, klass.name)) g :=
    Build.read_of_ok _ (find?_eq_ok_iff.mpr ⟨hcontainer, rfl⟩)
  -- The header is absorbed before the count of names is raised; both change one slot.
  have hheader : ((g.ensured into (.klass, klass.name)).2.modifyClass
        (g.ensured into (.klass, klass.name)).1
        (ClassDecl.absorb · klass (g.lookup into (.klass, klass.name)).isNone)).key?
      (g.ensured into (.klass, klass.name)).1 = some (.klass, klass.name) := by
    rcases Option.bind_eq_some_iff.mp hmade with ⟨made, hget, hkey⟩
    cases made <;> simp [Decl.key?] at hkey
    simp [key?, modifyClass, get?_modify, hget, Decl.mapClass, Decl.key?, hkey]
  simp only [adoptDecl, adoptClass]
  rw [bind_assoc, Build.bind_of_ok hread, bind_assoc,
    Build.bind_of_ok (ensureClass_eq hcontainer klass.name), bind_assoc,
    Build.bind_of_ok (Build.update_eq _ _), pure_bind,
    Build.bind_of_ok (raiseIssued_eq (by rw [hheader]; rfl) klass.scope.issued), modifyClass,
    modify_modify]
  rfl

end Container

/-- The question whether a method was there before is answered. -/
private theorem exists_hadAlike (hcontainer : (g.key? into).isSome) (oldSize : Nat)
    (method : MethodDecl) : ∃ had, Build.read (hadAlike · oldSize into method) g = .ok had g ∧
      (had = true ↔ g.HasAlike oldSize into (.method method)) := by
  rcases exists_scope hcontainer with ⟨scope, hscope, hmembers, -⟩
  refine ⟨scope.members.any fun id =>
    id.index < oldSize && (g.method? id).any fun other => other.Alike method, ?_, ?_⟩
  · exact Build.read_of_ok _ (by simp [hadAlike, members, hscope, Except.map])
  · rw [List.any_eq_true]
    constructor
    · intro hgiven
      rcases hgiven with ⟨id, hid, hboth⟩
      rw [Bool.and_eq_true, decide_eq_true_iff, Option.any_eq_true] at hboth
      rcases hboth with ⟨hlt, found, hfound, halike⟩
      rcases Option.bind_eq_some_iff.mp hfound with ⟨decl, hdecl, hdeclMethod⟩
      cases decl <;> simp [Decl.method?] at hdeclMethod
      subst hdeclMethod
      exact ⟨id, hmembers ▸ hid, hlt, _, method, hdecl, rfl, by simpa using halike⟩
    · intro hgiven
      rcases hgiven with ⟨id, hid, hlt, found, other, hfound, hother, halike⟩
      obtain rfl : method = other := by simpa using hother
      refine ⟨id, hmembers ▸ hid, ?_⟩
      simp [hlt, method?, hfound, Decl.method?, halike]

/-- What is no container is added, unless it is a method that was there before. -/
theorem exists_step_leaf (hcontainer : (g.key? into).isSome) (hleaf : decl.key? = none)
    (oldSize : Nat) (adoptBelow : DeclId → Build Unit) (source : DeclId) :
    ∃ target fresh h, Step oldSize g ⟨source, decl, into, target, fresh⟩ h ∧
      adoptDecl oldSize adoptBelow decl into g = .ok () h := by
  have hadd : discard (addMember into decl) g = .ok () (g.enlist into decl) := by
    change (addMember into decl >>= fun _ => pure ()) g = _
    rw [Build.bind_of_ok (addMember_eq hcontainer hleaf)]
    rfl
  have hcopied : (¬ g.HasAlike oldSize into decl) →
      adoptDecl oldSize adoptBelow decl into g = .ok () (g.enlist into decl) →
      ∃ target fresh h, Step oldSize g ⟨source, decl, into, target, fresh⟩ h ∧
        adoptDecl oldSize adoptBelow decl into g = .ok () h :=
    fun hnew hrun => ⟨_, _, _, .copied hleaf hcontainer hnew, hrun⟩
  have hnever : (∀ method, decl ≠ .method method) → ¬ g.HasAlike oldSize into decl := by
    rintro hne ⟨-, -, -, -, method, -, hmethod, -⟩
    exact hne method hmethod
  cases decl with
  | method method =>
      rcases exists_hadAlike hcontainer oldSize method with ⟨had, hread, hiff⟩
      cases had with
      | true =>
          refine ⟨none, false, g, .dropped hleaf (hiff.mp rfl), ?_⟩
          simp only [adoptDecl, adoptMethod]
          rw [Build.bind_of_ok hread]
          rfl
      | false =>
          refine hcopied (fun hold => Bool.false_ne_true (hiff.mpr hold)) ?_
          simp only [adoptDecl, adoptMethod]
          rw [Build.bind_of_ok hread]
          exact hadd
  | comment text => exact hcopied (hnever (by simp)) hadd
  | field field => exact hcopied (hnever (by simp)) hadd
  | typeParam tparam => exact hcopied (hnever (by simp)) hadd
  | param param => exact hcopied (hnever (by simp)) hadd
  | package package => simp [Decl.key?] at hleaf
  | klass klass => simp [Decl.key?] at hleaf
  | object object => simp [Decl.key?] at hleaf

/-- Bringing in a container is one step, and then what is below it is brought in. -/
theorem exists_step_container (hg : Coherent g) (hcontainer : (g.key? into).isSome)
    (hkey : decl.key? = some key) (hpackage : key.1 = .package → g.kind? into = some .package)
    (oldSize : Nat) (adoptBelow : DeclId → Build Unit) (source : DeclId) :
    ∃ target fresh h, Step oldSize g ⟨source, decl, into, some target, fresh⟩ h ∧
      adoptDecl oldSize adoptBelow decl into g = adoptBelow target h := by
  refine ⟨_, _, _, step_ensured hcontainer hkey hpackage oldSize source, ?_⟩
  cases decl <;> simp [Decl.key?] at hkey <;> subst hkey
  · exact adoptDecl_package hg oldSize adoptBelow (hpackage rfl) _ _
  · exact adoptDecl_klass hg hcontainer oldSize adoptBelow _
  · exact adoptDecl_object hg hcontainer oldSize adoptBelow _ _

end OneDeclaration

/-! ## Forests -/

/-- What is brought in into what a container became is a container, of the kind of that one. -/
theorem Log.isSome_key?_target {g other h : Graph} {plan : Renamings} {log : List Arrival}
    (hg : Coherent g) (hother : Coherent other) (hlog : Log g other plan log h) {a : Arrival}
    (ha : a ∈ log) {target : DeclId} (htarget : a.target = some target) :
    h.kind? target = other.kind? a.source ∧
      (h.key? target).isSome = (other.key? a.source).isSome := by
  rcases hlog.exists_decl ha with ⟨decl, hdecl, hrenamed⟩
  rcases hlog.key?_target hg hother ha htarget with ⟨hkey, hkind⟩
  refine ⟨?_, ?_⟩
  · rw [hkind, hrenamed, Renamings.kind_rename, Graph.kind?, hdecl, Option.map_some]
  · rw [hkey, hrenamed, Renamings.isSome_key?_rename, Graph.key?, hdecl, Option.bind_some]

/-- Bringing in a forest extends the log by the arrivals of the forest. -/
theorem Log.adopt {g other h : Graph} {plan : Renamings} {log : List Arrival}
    (hg : Coherent g) (hother : Coherent other) (hlog : Log g other plan log h)
    {ids : List DeclId} {forest : Forest} (hreads : Reads other ids forest) {parent : Arrival}
    {into : DeclId} (hparent : parent ∈ log) (hinto : parent.target = some into)
    (howner : ∀ id ∈ ids, other.owner? id = some parent.source)
    (hnodup : (log.map Arrival.source ++ forest.ids).Nodup)
    (hsize : ((adopt g.size (forest.map plan.rename) into).final h).size < UInt32.size) :
    ∃ more h', adopt g.size (forest.map plan.rename) into h = .ok () h' ∧
      Log g other plan (log ++ more) h' ∧ more.map Arrival.source = forest.ids := by
  induction hreads generalizing log h parent into with
  | nil => exact ⟨[], h, rfl, by simpa using hlog, rfl⟩
  | @cons id siblings decl below rest hdecl hbelow hrest ihBelow ihRest =>
      have hh := hlog.coherent hg
      have hid := howner id List.mem_cons_self
      have hcontainer : (h.key? into).isSome := by
        rw [(hlog.isSome_key?_target hg hother hparent hinto).2]
        exact hother.isSome_key?_of_owner? hid
      have hfresh : id ∉ log.map Arrival.source := by
        intro hin
        exact List.disjoint_of_nodup_append hnodup hin List.mem_cons_self
      -- Whatever the first declaration becomes, the log goes on from its arrival.
      have harrive : ∀ {target fresh h₁},
          Step g.size h ⟨id, plan.rename id decl, into, target, fresh⟩ h₁ →
          h₁.size < UInt32.size →
          Log g other plan (log ++ [⟨id, plan.rename id decl, into, target, fresh⟩]) h₁ :=
        fun hstep hlt => .arrive hlog hparent hinto hid hdecl rfl hfresh hstep hlt
      have hsiblings := fun sibling hsibling => howner sibling (List.mem_cons_of_mem _ hsibling)
      rw [Forest.map, Graph.adopt] at hsize ⊢
      cases hkey : (plan.rename id decl).key? with
      | none =>
          rcases exists_step_leaf hcontainer hkey g.size
            (fun target => Graph.adopt g.size (below.map plan.rename) target) id with
            ⟨target, fresh, h₁, hstep, hrun⟩
          have hdeclKey := Renamings.key?_rename_eq_none_iff.mp hkey
          have hmembers : other.memberIds id = [] := by
            simp [Graph.memberIds, hdecl, Decl.memberIds_of_key?_eq_none hdeclKey]
          rw [hmembers] at hbelow
          cases hbelow
          rw [Build.final_bind_of_ok hrun] at hsize
          rw [Build.bind_of_ok hrun]
          have hgrown := (fills_adopt g.size (rest.map plan.rename) into).growing h₁
          rcases ihRest (harrive hstep (by omega)) (List.mem_append_left _ hparent) hinto hsiblings
              (by simpa [Forest.ids] using hnodup) hsize with ⟨more, h', hdone, hlog', hmore⟩
          exact ⟨_ :: more, h', hdone, by simpa using hlog', by simp [Forest.ids, hmore]⟩
      | some key =>
          have hpackage : key.1 = .package → h.kind? into = some .package := by
            intro hkeyKind
            have hkind := Decl.kind_of_key? hkey
            rw [Renamings.kind_rename, hkeyKind] at hkind
            rw [(hlog.isSome_key?_target hg hother hparent hinto).1]
            exact hother.package_owner hid (by simp [kind?, hdecl, hkind])
          rcases exists_step_container hh hcontainer hkey hpackage g.size
            (fun target => Graph.adopt g.size (below.map plan.rename) target) id with
            ⟨target, fresh, h₁, hstep, hrun⟩
          have hcongr := Build.bind_congr hrun
            fun _ => Graph.adopt g.size (rest.map plan.rename) into
          rw [hcongr]
          rw [Build.final, hcongr, ← Build.final] at hsize
          have hsizeBelow : ((Graph.adopt g.size (below.map plan.rename) target).final h₁).size ≤
              ((Graph.adopt g.size (below.map plan.rename) target >>= fun _ =>
                Graph.adopt g.size (rest.map plan.rename) into).final h₁).size :=
            Build.size_final_le_bind
              (fun _ => (fills_adopt g.size (rest.map plan.rename) into).growing) h₁
          have hgrown := (fills_adopt g.size (below.map plan.rename) target).growing h₁
          have hnodupBelow : (log.map Arrival.source ++ id :: below.ids).Nodup := by
            refine hnodup.sublist ((List.Sublist.refl _).append ?_)
            exact (List.sublist_append_left _ _).cons_cons id
          rcases ihBelow (harrive hstep (by omega)) (List.mem_append_right _ List.mem_cons_self)
              rfl (fun member hmember => hother.mem_memberIds.mp hmember)
              (by simpa using hnodupBelow) (Nat.lt_of_le_of_lt hsizeBelow hsize) with
            ⟨moreBelow, h₂, hdoneBelow, hlogBelow, hmoreBelow⟩
          rw [Build.final_bind_of_ok hdoneBelow] at hsize
          rw [Build.bind_of_ok hdoneBelow]
          rcases ihRest hlogBelow (List.mem_append_left _ (List.mem_append_left _ hparent)) hinto
              hsiblings (by simpa [Forest.ids, hmoreBelow] using hnodup) hsize with
            ⟨more, h', hdone, hlog', hmore⟩
          exact ⟨_ :: (moreBelow ++ more), h', hdone, by simpa using hlog',
            by simp [Forest.ids, hmore, hmoreBelow]⟩

/-! ## The whole merge -/

/-- The renamings that a merge plans for what it reads. -/
def planned (g other : Graph) (forest : Forest) : Renamings :=
  forest.ids.filterMap (g.renaming? other)

/-- Where containers go is looked up without fail, and yields the plan. -/
theorem exists_plan {g other : Graph} {forest : Forest} (hg : Coherent g) (hother : Coherent other)
    (hreads : Reads other (other.memberIds root) forest) :
    ∃ into, g.scope root = .ok into ∧
      forest.renamings g (some into) Path.root Path.root = .ok (g.planned other forest) := by
  have hroot := hg.isSome_key?_root
  rcases exists_scope hroot with ⟨into, hinto, -⟩
  have hscope : g.scopeOf (g.site other root) = .ok (some into) := by
    rw [site_root, scopeOf, hinto]
    rfl
  have hplan := Forest.renamings_eq hg hother hreads
    (fun id hid => hother.mem_memberIds.mp hid) hscope
  rw [path_root, mergedPath_root] at hplan
  exact ⟨into, hinto, hplan⟩

/-- The intake of a merge holds everything below the root under the planned names. -/
theorem intake_eq {g other : Graph} {forest : Forest} (hg : Coherent g) (hother : Coherent other)
    (hreads : Reads other (other.memberIds root) forest) :
    g.intake other = .ok
      { forest := forest.map (g.planned other forest).rename
        issued := other.issued root
        oldSize := g.size } := by
  have hotherRoot := hother.isSome_key?_root
  rcases exists_scope hotherRoot with ⟨source, hsource, hmembers, hissued, -⟩
  rcases exists_plan hg hother hreads with ⟨into, hinto, hplan⟩
  have hforest := hother.forest_of_reads (fun id hid => hother.mem_memberIds.mp hid) hreads
  rw [hmembers] at hforest
  simp only [intake, hinto, hsource, bind, Except.bind, hforest, hplan, pure, Except.pure, hissued]

/-- After the intake a merge is the adoption of what was taken in. -/
theorem merge_eq_adopt {g other : Graph} {forest : Forest} {decl : Decl} (hg : Coherent g)
    (hother : Coherent other) (hreads : Reads other (other.memberIds root) forest)
    (hdecl : other.get? root = some decl) :
    merge other g = adopt g.size (forest.map (g.planned other forest).rename) root
      (g.modify root (((g.planned other forest).rename root decl).absorb false)) := by
  have hroot := hg.isSome_key?_root
  have hstart : g.modify root (Decl.mapScope (Scope.raise · (other.issued root))) =
      g.modify root (((g.planned other forest).rename root decl).absorb false) := by
    have hkey := hother.key?_root
    rw [Graph.key?, hdecl, Option.bind_some] at hkey
    cases decl <;> simp [Decl.key?] at hkey
    simp only [issued, hdecl]
    rfl
  have hread : Build.read (intake · other) g = .ok _ g :=
    Build.read_of_ok (intake · other) (intake_eq hg hother hreads)
  rw [merge, Build.bind_of_ok hread, Build.bind_of_ok (raiseIssued_eq hroot _), hstart]

/-- A merge gives up no slot. -/
theorem growing_merge (other : Graph) : Build.Growing (merge other) :=
  Build.growing_bind (Build.fills_read _).growing fun intake =>
    Build.growing_bind (fills_raiseIssued root intake.issued).growing fun _ =>
      (fills_adopt intake.oldSize intake.forest root).growing

theorem growing_mergeAll : ∀ parts : List Graph, Build.Growing (mergeAll parts)
  | [] => (Build.fills_pure ()).growing
  | part :: parts => Build.growing_bind (growing_merge part) fun _ => growing_mergeAll parts

/-- A merge fills less slots than the incoming graph has. -/
theorem size_merge_lt {g other : Graph} (hg : Coherent g) (hother : Coherent other) :
    ((merge other).final g).size < g.size + other.size := by
  rcases hother.exists_reads root with ⟨forest, hreads⟩
  have hread : Build.read (intake · other) g = .ok _ g :=
    Build.read_of_ok (intake · other) (intake_eq hg hother hreads)
  have hfilled := (Build.fills_bind (fills_raiseIssued root (other.issued root)) fun _ =>
    fills_adopt g.size (forest.map (g.planned other forest).rename) root) g
  have hlength := hother.length_ids_lt hreads hother.isSome_key?_root
  rw [Forest.ids_map] at hfilled
  rw [merge, Build.final_bind_of_ok hread]
  exact Nat.lt_of_le_of_lt hfilled.2 (by omega)

/-- A merge goes through as long as there are slots, and leaves a log that holds an arrival for the
root and for everything that is read below it. -/
theorem exists_log_of_merge {g other : Graph} (hg : Coherent g) (hother : Coherent other)
    (hsize : ((merge other).final g).size < UInt32.size) :
    ∃ forest log h, Reads other (other.memberIds root) forest ∧ merge other g = .ok () h ∧
      Log g other (g.planned other forest) log h ∧
      log.map Arrival.source = root :: forest.ids := by
  have howner : ∀ id ∈ other.memberIds root, other.owner? id = some root :=
    fun id hid => hother.mem_memberIds.mp hid
  rcases hother.exists_reads root with ⟨forest, hreads⟩
  rcases exists_get? (index_lt_of_key? hother.key?_root) with ⟨decl, hdecl⟩
  have hrun := merge_eq_adopt hg hother hreads hdecl
  rw [Build.final, hrun, ← Build.final] at hsize
  rcases Log.adopt hg hother (.start hdecl) hreads (List.mem_singleton.mpr rfl) rfl howner
      (by simpa using hother.nodup_cons_ids hreads)
      hsize with ⟨more, h, hdone, hlog, hmore⟩
  exact ⟨forest, _, h, hreads, hrun.trans hdone, hlog, by simp [hmore]⟩

end Graph
end DeclGraph
