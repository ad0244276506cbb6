import DeclGraph.Proofs.Adoption

/-!
# The plan and the merge agree

The plan is made from the graph as it was before the merge, and the merge looks
into the graph as it has become.  They agree: a container joins exactly the
container that is its site, and is founded exactly if it has none.  It follows that
different containers become different containers, and that what each of them takes
with it is absorbed once.

Main results:

- Theorem `Graph.Log.target_of_site`: what has a site joins it.
- Theorem `Graph.Log.fresh_iff`: what has no site is founded.
- Theorem `Graph.Log.eq_of_target_eq`: different containers become different
  containers.
- Theorem `Graph.Log.header?_target`: a container absorbs once what comes into it.
- Theorem `Graph.Log.path_target`: what a container becomes has its merged path.
-/

namespace DeclGraph
namespace Graph

/-- Everything that came in below the root came under its merged key. -/
def KeysPlanned (g other : Graph) (log : List Arrival) : Prop :=
  ∀ a ∈ log, a.source ≠ root → a.decl.key? = g.mergedKey? other a.source

/-- A merge brings everything in under its merged key. -/
theorem Log.keysPlanned {g other h : Graph} {forest : Forest} {log : List Arrival}
    (hlog : Log g other (g.planned other forest) log h)
    (hsources : log.map Arrival.source = root :: forest.ids) : KeysPlanned g other log := by
  intro a ha hne
  have hsource : a.source ∈ forest.ids := by
    have hmem : a.source ∈ log.map Arrival.source := List.mem_map_of_mem ha
    rw [hsources] at hmem
    exact (List.mem_cons.mp hmem).resolve_left hne
  rcases hlog.exists_decl ha with ⟨decl, hdecl, hrenamed⟩
  rcases hlog.exists_parent ha with ⟨hroot, -⟩ | ⟨parent, -, -, howner⟩
  · exact absurd hroot hne
  · rw [hrenamed]
    exact Renamings.key?_rename hsource howner hdecl

namespace Log

variable {g other h : Graph} {plan : Renamings} {log : List Arrival}

/-- What comes in has issued as many names as it had. -/
theorem issued_decl (hlog : Log g other plan log h) {a : Arrival} (ha : a ∈ log) :
    a.decl.issued = other.issued a.source := by
  rcases hlog.exists_decl ha with ⟨decl, hdecl, hrenamed⟩
  simp [hrenamed, Decl.issued, Graph.issued, hdecl]

/-- The root joins the root, and everything else comes into what its owner became. -/
theorem cases_arrival (hother : Coherent other) (hlog : Log g other plan log h) {a : Arrival}
    (ha : a ∈ log) :
    (a.source = root ∧ a.target = some root ∧ a.fresh = false) ∨
      (a.source ≠ root ∧ ∃ parent ∈ log, parent.target = some a.container ∧
        other.owner? a.source = some parent.source) := by
  rcases hlog.exists_parent ha with hroot | ⟨parent, hparent, htarget, howner⟩
  · exact Or.inl hroot
  · exact Or.inr ⟨hother.ne_root_of_owner? howner, parent, hparent, htarget, howner⟩

/-- Containers come in as containers. -/
theorem isSome_key?_decl (hlog : Log g other plan log h) {a : Arrival} (ha : a ∈ log) :
    a.decl.key?.isSome = (other.key? a.source).isSome := by
  rcases hlog.exists_decl ha with ⟨decl, hdecl, hrenamed⟩
  rw [hrenamed, Renamings.isSome_key?_rename, Graph.key?, hdecl, Option.bind_some]

section Growth

variable (hg : Coherent g) (hlog : Log g other plan log h)

include hg hlog

/-- Counts of issued names only grow, and what comes in adds its own. -/
theorem issued_le (id : DeclId) : (g.issued id).toNat ≤ (h.issued id).toNat ∧
    ∀ a ∈ log, a.target = some id →
      (Name.shiftIndex (g.issued id) a.decl.issued).toNat ≤ (h.issued id).toNat := by
  induction hlog with
  | start =>
      have hbound := (g.issued root).toNat_lt_size
      have hroot := hg.isSome_key?_root
      rw [issued_modify_absorb hroot]
      by_cases hid : id = root
      · rw [if_pos hid, hid]
        refine ⟨?_, ?_⟩
        · rw [Name.toNat_shiftIndex]
          omega
        · intro a ha _
          obtain rfl := List.mem_singleton.mp ha
          exact Nat.le_refl _
      · rw [if_neg hid]
        refine ⟨Nat.le_refl _, ?_⟩
        rintro a ha htarget
        rw [List.mem_singleton.mp ha] at htarget
        exact absurd (Option.some.inj htarget).symm hid
  | @arrive log h h' parent a decl hlog hparent htarget howner hdecl hrenamed hnew hstep hsize ih =>
      have hh := hlog.coherent hg
      have hbound := (h.issued id).toNat_lt_size
      have hissued := (hstep.effect hh hsize).issued hh id
      have hgrown : (h.issued id).toNat ≤ (h'.issued id).toNat := by
        rw [hissued]
        split
        · rw [Name.toNat_shiftIndex]
          omega
        · exact Nat.le_refl _
      refine ⟨Nat.le_trans ih.1 hgrown, ?_⟩
      intro b hb hbTarget
      rcases List.mem_append.mp hb with hold | hlast
      · exact Nat.le_trans (ih.2 b hold hbTarget) hgrown
      · obtain rfl := List.mem_singleton.mp hlast
        rw [hissued, if_pos hbTarget, Name.toNat_shiftIndex, Name.toNat_shiftIndex]
        have hold := ih.1
        omega

/-- What nothing came into keeps its header. -/
theorem header?_old {id : DeclId} (hid : id.index < g.size)
    (hnever : ∀ a ∈ log, a.target ≠ some id) : h.header? id = g.header? id := by
  induction hlog with
  | start =>
      have hne : id ≠ root := by
        rintro rfl
        exact hnever _ (List.mem_singleton.mpr rfl) rfl
      rw [header?_modify, if_neg hne]
  | @arrive log h h' parent a decl hlog hparent htarget howner hdecl hrenamed hnew hstep hsize ih =>
      have hlast := hnever a (List.mem_append_right _ (List.mem_singleton.mpr rfl))
      rw [(hstep.effect (hlog.coherent hg) hsize).header?, if_neg hlast]
      exact ih fun b hb => hnever b (List.mem_append_left _ hb)

/-- Slots of their own are all different. -/
theorem eq_of_fresh (hother : Coherent other) {a b : Arrival} (ha : a ∈ log) (hb : b ∈ log)
    (haFresh : a.fresh = true) (hbFresh : b.fresh = true) (htarget : a.target = b.target) :
    a = b := by
  induction hlog with
  | start =>
      rw [List.mem_singleton] at ha hb
      rw [ha, hb]
  | @arrive log h h' parent c decl hlog hparent _ howner hdecl hrenamed hnew hstep hsize ih =>
      have hh := hlog.coherent hg
      have heffect := hstep.effect hh hsize
      -- An arrival of before is in a slot of before, and so not in the next one.
      have hapart : ∀ d ∈ log, d.fresh = true → c.fresh = true → d.target ≠ c.target := by
        intro d hd hdFresh hcFresh hsame
        rcases hlog.size_le_of_fresh hg hd hdFresh with ⟨target, hdTarget, -⟩
        have hlt := index_lt_of_kind? (hlog.key?_target hg hother hd hdTarget).2
        rw [hdTarget, heffect.target_fresh hcFresh] at hsame
        rw [Option.some.inj hsame, index_nextId hh.size_lt] at hlt
        exact Nat.lt_irrefl _ hlt
      rcases List.mem_append.mp ha with haOld | haLast <;>
        rcases List.mem_append.mp hb with hbOld | hbLast
      · exact ih haOld hbOld
      · obtain rfl := List.mem_singleton.mp hbLast
        exact absurd htarget (hapart a haOld haFresh hbFresh)
      · obtain rfl := List.mem_singleton.mp haLast
        exact absurd htarget.symm (hapart b hbOld hbFresh haFresh)
      · rw [List.mem_singleton.mp haLast, List.mem_singleton.mp hbLast]

end Growth

section Sites

variable (hg : Coherent g) (hother : Coherent other) (hlog : Log g other plan log h)
  (hkeys : KeysPlanned g other log)

include hg hother hlog hkeys

/-- What has a site joins it. -/
theorem target_of_site {a : Arrival} (ha : a ∈ log) {e : DeclId}
    (hsite : g.site other a.source = some e) : a.target = some e ∧ a.fresh = false := by
  induction hlog generalizing a e with
  | start =>
      rw [List.mem_singleton] at ha
      subst ha
      rw [site_root] at hsite
      exact ⟨hsite, rfl⟩
  | @arrive log h h' parent c decl hlog hparent htarget howner hdecl hrenamed hnew hstep hsize ih =>
      have hkeysOld : KeysPlanned g other log := fun b hb => hkeys b (List.mem_append_left _ hb)
      rcases List.mem_append.mp ha with hold | hlast
      · exact ih hkeysOld hold hsite
      · obtain rfl := List.mem_singleton.mp hlast
        rw [site_of_owner? hother howner] at hsite
        rcases Option.bind_eq_some_iff.mp hsite with ⟨above, habove, hsite⟩
        rcases Option.bind_eq_some_iff.mp hsite with ⟨key, hkey, hlookup⟩
        have hparentTarget := (ih hkeysOld hparent habove).1
        obtain rfl : above = a.container := Option.some.inj (hparentTarget.symm.trans htarget)
        have hdeclKey := hkeys a ha (hother.ne_root_of_owner? howner)
        rw [hkey] at hdeclKey
        have hfound := hlog.lookup_old hg hlookup
        cases hstep with
        | joined hsame hthere =>
            obtain rfl := Option.some.inj (hdeclKey.symm.trans hsame)
            exact ⟨hthere.symm.trans hfound, rfl⟩
        | founded hsame hno =>
            obtain rfl := Option.some.inj (hdeclKey.symm.trans hsame)
            rw [hfound] at hno
            contradiction
        | copied hleaf =>
            rw [hdeclKey] at hleaf
            contradiction
        | dropped hleaf =>
            rw [hdeclKey] at hleaf
            contradiction

/-- What has a slot of its own has no site. -/
theorem site_of_fresh {a : Arrival} (ha : a ∈ log) (hfresh : a.fresh = true) :
    g.site other a.source = none := by
  cases hsite : g.site other a.source with
  | none => rfl
  | some e =>
      rw [(hlog.target_of_site hg hother hkeys ha hsite).2] at hfresh
      contradiction

omit hkeys in
/-- If what joins joins its site, different containers become different containers. -/
private theorem eq_of_target_eq_of_joined (hapart : KeysApart g other)
    (hjoined : ∀ a ∈ log, a.decl.key?.isSome → a.fresh = false →
      g.site other a.source = a.target)
    {a b : Arrival} (ha : a ∈ log) (hb : b ∈ log) (haKey : a.decl.key?.isSome)
    (hbKey : b.decl.key?.isSome) (htarget : a.target = b.target) : a = b := by
  -- A slot of its own is no slot of `g`, and every site is one.
  have hmixed : ∀ c ∈ log, ∀ d ∈ log, c.fresh = true → d.decl.key?.isSome → d.fresh = false →
      c.target ≠ d.target := by
    intro c hc d hd hcFresh hdKey hdFresh hsame
    rcases hlog.size_le_of_fresh hg hc hcFresh with ⟨target, hcTarget, hle⟩
    have hsite := hjoined d hd hdKey hdFresh
    rw [← hsame, hcTarget] at hsite
    rcases Option.isSome_iff_exists.mp (isSome_key?_of_site hg hother hsite) with ⟨key, hkey⟩
    have hlt := index_lt_of_key? hkey
    omega
  cases haFresh : a.fresh with
  | true =>
      cases hbFresh : b.fresh with
      | true => exact hlog.eq_of_fresh hg hother ha hb haFresh hbFresh htarget
      | false => exact absurd htarget (hmixed a ha b hb haFresh hbKey hbFresh)
  | false =>
      cases hbFresh : b.fresh with
      | true => exact absurd htarget.symm (hmixed b hb a ha hbFresh haKey haFresh)
      | false =>
          rcases hlog.exists_target ha haKey with ⟨e, he⟩
          have haSite := (hjoined a ha haKey haFresh).trans he
          have hbSite := (hjoined b hb hbKey hbFresh).trans (htarget.symm.trans he)
          exact hlog.eq_of_source_eq ha hb (eq_of_site_eq hg hother hapart haSite hbSite)

/-- Whatever joins a container joins its site. -/
private theorem site_eq_target (hapart : KeysApart g other) {a : Arrival} (ha : a ∈ log)
    (hkey : a.decl.key?.isSome) (hfresh : a.fresh = false) :
    g.site other a.source = a.target := by
  induction hlog generalizing a with
  | start =>
      rw [List.mem_singleton] at ha
      subst ha
      exact site_root g other
  | @arrive log h h' parent c decl hlog hparent htarget howner hdecl hrenamed hnew hstep hsize ih =>
      have hkeysOld : KeysPlanned g other log := fun b hb => hkeys b (List.mem_append_left _ hb)
      have hjoinedOld : ∀ b ∈ log, b.decl.key?.isSome → b.fresh = false →
          g.site other b.source = b.target := fun b hb hbKey hbFresh => ih hkeysOld hb hbKey hbFresh
      rcases List.mem_append.mp ha with hold | hlast
      · exact hjoinedOld a hold hkey hfresh
      · obtain rfl := List.mem_singleton.mp hlast
        have hh := hlog.coherent hg
        have hsame : ∀ {b c : Arrival}, b ∈ log → c ∈ log → b.decl.key?.isSome →
            c.decl.key?.isSome → b.target = c.target → b = c :=
          hlog.eq_of_target_eq_of_joined hg hother hapart hjoinedOld
        have hparentKey : ∀ b ∈ log, ∀ {id : DeclId}, other.owner? id = some b.source →
            b.decl.key?.isSome := by
          intro b hb id hid
          rw [hlog.isSome_key?_decl hb]
          exact hother.isSome_key?_of_owner? hid
        cases hstep with
        | founded => contradiction
        | copied => contradiction
        | dropped hleaf => simp [hleaf] at hkey
        | @joined source container target decl key haKey hfound =>
            rcases hh.lookup_eq_some.mp hfound with ⟨htargetOwner, htargetKey⟩
            have haPlanned := hkeys _ ha (hother.ne_root_of_owner? howner)
            simp only [haKey] at haPlanned
            by_cases hthere : target.index < g.size
            · -- It was there before the merge, and so was the container.
              rw [hlog.owner?_old hg hthere] at htargetOwner
              rw [(hlog.key?_old hg hthere).1] at htargetKey
              have hparentFresh : parent.fresh = false := by
                cases hcase : parent.fresh with
                | false => rfl
                | true =>
                    rcases hlog.size_le_of_fresh hg hparent hcase with ⟨made, hmade, hle⟩
                    obtain rfl : container = made := Option.some.inj (htarget.symm.trans hmade)
                    rcases Option.isSome_iff_exists.mp (hg.isSome_key?_of_owner? htargetOwner)
                      with ⟨containerKey, hcontainerKey⟩
                    have hlt := index_lt_of_key? hcontainerKey
                    omega
              have hparentSite :=
                (hjoinedOld parent hparent (hparentKey parent hparent howner) hparentFresh).trans
                  htarget
              rw [site_of_owner? hother howner, hparentSite, ← haPlanned]
              exact hg.lookup_eq_some.mpr ⟨htargetOwner, htargetKey⟩
            · -- It came in before, out of the same container and under the same key.
              rcases hlog.exists_fresh hg (Nat.le_of_not_lt hthere)
                (hh.index_lt_of_owner? htargetOwner) with ⟨b, hb, hbFresh, hbTarget⟩
              rcases hlog.cases_arrival hother hb with
                ⟨-, -, hbJoined⟩ | ⟨hbRoot, parent', hparent', htarget', howner'⟩
              · rw [hbJoined] at hbFresh
                contradiction
              · have hbOwner := hlog.owner?_target hg hb hbRoot hbTarget
                rw [htargetOwner] at hbOwner
                have hparents : parent' = parent := by
                  apply hsame hparent' hparent (hparentKey parent' hparent' howner')
                    (hparentKey parent hparent howner)
                  rw [htarget', htarget, Option.some.inj hbOwner]
                rw [hparents] at howner'
                have hbPlanned := hkeys b (List.mem_append_left _ hb) hbRoot
                rw [← (hlog.key?_target hg hother hb hbTarget).1, htargetKey] at hbPlanned
                have hsources := hapart howner' howner hbPlanned.symm haPlanned.symm
                exact absurd (hsources ▸ List.mem_map_of_mem hb) hnew

variable (hapart : KeysApart g other)

include hapart

/-- What has no site is founded. -/
theorem fresh_iff {a : Arrival} (ha : a ∈ log) (hkey : a.decl.key?.isSome) :
    a.fresh = true ↔ g.site other a.source = none := by
  constructor
  · exact hlog.site_of_fresh hg hother hkeys ha
  · intro hsite
    cases hfresh : a.fresh with
    | true => rfl
    | false =>
        rcases hlog.exists_target ha hkey with ⟨e, he⟩
        rw [hlog.site_eq_target hg hother hkeys hapart ha hkey hfresh, he] at hsite
        contradiction

/-- Different containers become different containers. -/
theorem eq_of_target_eq {a b : Arrival} (ha : a ∈ log) (hb : b ∈ log)
    (haKey : a.decl.key?.isSome) (hbKey : b.decl.key?.isSome) (htarget : a.target = b.target) :
    a = b :=
  hlog.eq_of_target_eq_of_joined hg hother hapart
    (fun _ hc hcKey hcFresh => hlog.site_eq_target hg hother hkeys hapart hc hcKey hcFresh)
    ha hb haKey hbKey htarget

/-- What joins a container joins one that was there before the merge. -/
theorem index_lt_of_joined {a : Arrival} (ha : a ∈ log) (hkey : a.decl.key?.isSome)
    (hfresh : a.fresh = false) {e : DeclId} (he : a.target = some e) : e.index < g.size := by
  have hsite := (hlog.site_eq_target hg hother hkeys hapart ha hkey hfresh).trans he
  rcases Option.isSome_iff_exists.mp (isSome_key?_of_site hg hother hsite) with ⟨key, hkey⟩
  exact index_lt_of_key? hkey

/-- A container absorbs once what comes into it. -/
theorem header?_target {a : Arrival} (ha : a ∈ log) (hkey : a.decl.key?.isSome) {e : DeclId}
    (he : a.target = some e) : h.header? e = a.settled (g.header? e) := by
  induction hlog generalizing a with
  | start =>
      rw [List.mem_singleton] at ha
      subst ha
      obtain rfl := Option.some.inj he
      rcases Option.isSome_iff_exists.mp hkey with ⟨key, hkey⟩
      rw [header?_modify, if_pos rfl, Arrival.settled, hkey]
      simp [Graph.header?, Decl.header_absorb, Function.comp_def]
  | @arrive log h h' parent c decl hlog hparent htarget howner hdecl hrenamed hnew hstep hsize ih =>
      have hh := hlog.coherent hg
      have heffect := hstep.effect hh hsize
      have hlog' : Log g other plan (log ++ [c]) h' :=
        .arrive hlog hparent htarget howner hdecl hrenamed hnew hstep hsize
      have hkeysOld : KeysPlanned g other log := fun b hb => hkeys b (List.mem_append_left _ hb)
      have hlast : c ∈ log ++ [c] := List.mem_append_right _ (List.mem_singleton.mpr rfl)
      -- The last arrival is the only one that came into what it became.
      have honly : ∀ b ∈ log, b.decl.key?.isSome → c.decl.key?.isSome → b.target ≠ c.target := by
        intro b hb hbKey hcKey hsame
        have heq := hlog'.eq_of_target_eq hg hother hkeys hapart (List.mem_append_left _ hb) hlast
          hbKey hcKey hsame
        exact hnew (heq ▸ List.mem_map_of_mem hb)
      have hcKeyed : ∀ b ∈ log, b.decl.key?.isSome → b.target = c.target →
          c.decl.key?.isSome := by
        intro b hb hbKey hsame
        rcases hlog.exists_target hb hbKey with ⟨target, hbTarget⟩
        have hbNow := (hlog'.key?_target hg hother (List.mem_append_left _ hb) hbTarget).1
        have hcNow := (hlog'.key?_target hg hother hlast (hsame ▸ hbTarget)).1
        rw [← hcNow, hbNow]
        exact hbKey
      rw [heffect.header?]
      rcases List.mem_append.mp ha with hold | hIsLast
      · have hne : c.target ≠ some e := by
          intro hsame
          have hsame' := he.trans hsame.symm
          exact honly a hold hkey (hcKeyed a hold hkey hsame') hsame'
        rw [if_neg hne]
        exact ih hkeysOld hold hkey he
      · obtain rfl := List.mem_singleton.mp hIsLast
        rw [if_pos he]
        cases hfresh : a.fresh with
        | true =>
            rcases Option.isSome_iff_exists.mp hkey with ⟨key, hkey⟩
            simp [Arrival.settled, hkey, hfresh]
        | false =>
            have hlt := hlog'.index_lt_of_joined hg hother hkeys hapart ha hkey hfresh he
            rw [hlog.header?_old hg hlt]
            intro b hb hbTarget
            have hbKey : b.decl.key?.isSome := by
              have hbNow := (hlog'.key?_target hg hother (List.mem_append_left _ hb) hbTarget).1
              have haNow := (hlog'.key?_target hg hother hlast he).1
              rw [← hbNow, haNow]
              exact hkey
            exact honly b hb hbKey hkey (hbTarget.trans he.symm)

omit hapart in
/-- What a container becomes has its merged path. -/
theorem path_target {a : Arrival} (ha : a ∈ log) (hkey : a.decl.key?.isSome) {e : DeclId}
    (he : a.target = some e) : h.path e = g.mergedPath other a.source := by
  induction hindex : a.source.index using Nat.strongRecOn generalizing a e with
  | ind index ih =>
      rcases hlog.cases_arrival hother ha with
        ⟨hroot, htarget, -⟩ | ⟨hne, parent, hparent, htarget, howner⟩
      · obtain rfl := Option.some.inj (he.symm.trans htarget)
        rw [hroot, path_root, mergedPath_root]
      · have hlt := hother.owner_lt howner
        have hparentKey : parent.decl.key?.isSome := by
          rw [hlog.isSome_key?_decl hparent]
          exact hother.isSome_key?_of_owner? howner
        have habove := ih parent.source.index (by omega) hparent hparentKey htarget rfl
        have hplanned := hkeys a ha hne
        rw [hlog.isSome_key?_decl ha] at hkey
        rcases Option.isSome_iff_exists.mp hkey with ⟨key, hkey⟩
        rw [mergedKey?_of_owner? howner hkey] at hplanned
        have heKey := (hlog.key?_target hg hother ha he).1.trans hplanned
        rw [path_of_owner? (hlog.coherent hg) (hlog.owner?_target hg ha hne he) heKey, habove,
          mergedPath_of_owner? hother howner hkey]

end Sites

end Log

end Graph
end DeclGraph
