import PortForwarding.Pass.Fleet
import PortForwarding.Proofs.Pass.Reconcile
import PortForwarding.Proofs.Scene

/-!
# A pass against drift converges

Where all Services that are looked after can have what they want beside each other
(`Compatible`), one pass brings all of them to own it, and the next pass finds
nothing to do (`pass_converges`).

All Services are compared with one listing, which is old when their turn comes.
That does no harm, since a Service that owns what it wants goes on owning it
(`Settled.of_works`): what another one deletes is its own, and what it takes over
is on slots where this Service has no rules.
-/

namespace PortForwarding

open Listing Script Scene

namespace Visit

/-- Nothing had come apart, or it was mended. -/
def IsSmooth (v : Visit) : Prop :=
  v = .calm ∨ ∃ n, v = .corrected n

theorem IsSmooth.not_failed {v : Visit} (h : v.IsSmooth) : v.isFailed = false := by
  rcases h with rfl | ⟨n, rfl⟩ <;> rfl

theorem IsSmooth.drifted {v : Visit} (h : v.IsSmooth) :
    v.isDrifted = v.isCorrected := by
  rcases h with rfl | ⟨n, rfl⟩ <;> rfl

theorem IsSmooth.not_endsPass {v : Visit} (h : v.IsSmooth) : v.endsPass = false := by
  rcases h with rfl | ⟨n, rfl⟩ <;> rfl

end Visit

namespace Fleet

/-! ## Services beside each other -/

/-- **All Services that are looked after can have what they want**: it can be
worked out, no two of them want one external port, and nobody else has
reserved one. -/
structure Compatible (defaults : RuleDefaults) (s : Scene) : Prop where
  sound : s.site.Sound
  keys_nodup : ((managed s.services).map ServiceView.key).Nodup
  valid : ∀ view ∈ managed s.services, view.key.Valid
  wants : ∀ view ∈ managed s.services, ∃ desired,
    Desired.rulesFor view defaults = .ok desired
  apart : ∀ view ∈ managed s.services, ∀ other ∈ managed s.services,
    other.key ≠ view.key →
    ∀ desired wanted, Desired.rulesFor view defaults = .ok desired →
      Desired.rulesFor other defaults = .ok wanted →
      (Desired.externalPorts desired).Disjoint (Desired.externalPorts wanted)
  free : ∀ view ∈ managed s.services, ∀ desired,
    Desired.rulesFor view defaults = .ok desired → Free view.key desired s

/-- The Service owns what it wants. -/
def Settled (defaults : RuleDefaults) (view : ServiceView) (s : Scene) : Prop :=
  ∀ desired, Desired.rulesFor view defaults = .ok desired →
    Converged view.key desired s.site.rules

/-- A rule that none of these Services owns, on a slot that none of them wants. -/
def Foreign (defaults : RuleDefaults) (views : List ServiceView)
    (r : RouterRule) : Prop :=
  ∀ view ∈ views, r.isOwnedBy view.key = false ∧
    ∀ desired, Desired.rulesFor view defaults = .ok desired →
      ∀ d ∈ desired, d.slot ≠ r.slot

/-- **What a pass does on its way**: whoever owns what it wants goes on owning it,
and foreign rules stay. -/
structure Advances (defaults : RuleDefaults) (s t : Scene) : Prop where
  compatible : Compatible defaults t
  services : t.services = s.services
  settled : ∀ view ∈ managed s.services, Settled defaults view s → Settled defaults view t
  foreign : ∀ r, Foreign defaults (managed s.services) r →
    (r ∈ t.site.rules ↔ r ∈ s.site.rules)

section

variable {defaults : RuleDefaults} {view other : ServiceView}
  {views : List ServiceView} {desired : List DesiredRule}
  {rules : List RouterRule} {first s t u : Scene}

theorem Advances.refl (hs : Compatible defaults s) : Advances defaults s s :=
  ⟨hs, rfl, fun _ _ h => h, fun _ _ => Iff.rfl⟩

theorem Advances.trans (h : Advances defaults s t) (h' : Advances defaults t u) :
    Advances defaults s u := by
  refine ⟨h'.compatible, h'.services.trans h.services, fun view hview hsettled => ?_,
    fun r hr => ?_⟩
  · refine h'.settled view ?_ (h.settled view hview hsettled)
    rw [h.services]
    exact hview
  · refine (h'.foreign r ?_).trans (h.foreign r hr)
    rw [h.services]
    exact hr

/-- **A Service that owns what it wants goes on owning it** while another one
works for itself. -/
theorem Settled.of_works (hs : Compatible defaults s)
    (hview : view ∈ managed s.services) (hother : other ∈ managed s.services)
    (hne : other.key ≠ view.key)
    (hrules : Desired.rulesFor view defaults = .ok desired)
    (hworks : Works view.key desired s t) (h : Settled defaults other s) :
    Settled defaults other t := by
  intro wanted hwants
  have hconverged := h wanted hwants
  have hdisjoint := hs.apart view hview other hother hne desired wanted hrules hwants
  have helsewhere : Plan.Elsewhere view.key desired s.site.rules fun spec =>
      spec.isOwnedBy other.key := by
    constructor
    · intro spec howned
      by_contra hboth
      exact hne (RuleSpec.isOwnedBy_unique (Bool.of_not_eq_false hboth) howned)
    -- its rules are on slots that it wants, and so on other ports
    · intro r hr d hd hslot
      by_contra howned
      have hmem : r ∈ ownedRules other.key s.site.rules :=
        List.mem_filter.mpr ⟨hr, Bool.of_not_eq_false howned⟩
      obtain ⟨w, hw, hmeets⟩ := hconverged.meets r hmem
      have hport : d.slot.external = w.slot.external :=
        congrArg Slot.external (hslot.trans hmeets.slot)
      refine hdisjoint (List.mem_map_of_mem hd) ?_
      rw [hport]
      exact List.mem_map_of_mem hw
  have hsame : ownedRules other.key t.site.rules = ownedRules other.key s.site.rules :=
    hworks.spares _ helsewhere
  refine hconverged.of_specs_perm ?_
  rw [hsame]

/-- What a Service does for itself is an advance, unless it comes apart by it. -/
theorem Advances.of_works (hs : Compatible defaults s)
    (hview : view ∈ managed s.services)
    (hrules : Desired.rulesFor view defaults = .ok desired)
    (hworks : Works view.key desired s t)
    (hown : Settled defaults view s → Settled defaults view t) :
    Advances defaults s t := by
  have hsame : managed t.services = managed s.services := by rw [hworks.services]
  refine ⟨⟨hworks.sound, ?_, ?_, ?_, ?_, ?_⟩, hworks.services, ?_, ?_⟩
  · rw [hsame]
    exact hs.keys_nodup
  · rw [hsame]
    exact hs.valid
  · rw [hsame]
    exact hs.wants
  · rw [hsame]
    exact hs.apart
  · rw [hsame]
    intro other hother wanted hwants port hport k hholder
    rcases hworks.holders port k hholder with hheld | ⟨rfl, hmine⟩
    · exact hs.free other hother wanted hwants port hport k hheld
    · by_contra hne
      exact hs.apart view hview other hother (Ne.symm hne) desired wanted hrules
        hwants hmine hport
  · intro other hother hsettled
    by_cases hkey : other.key = view.key
    · obtain rfl := List.inj_on_of_nodup_map hs.keys_nodup hother hview hkey
      exact hown hsettled
    · exact hsettled.of_works hs hview hother hkey hrules hworks
  · intro r hr
    obtain ⟨hforeign, hslots⟩ := hr view hview
    have helsewhere : Plan.Elsewhere view.key desired s.site.rules fun spec =>
        spec == r.spec := by
      constructor
      · intro spec howned
        refine beq_eq_false_iff_ne.mpr ?_
        rintro rfl
        exact absurd (hforeign.symm.trans howned) (by simp)
      · intro r' hr' d hd hslot
        refine beq_eq_false_iff_ne.mpr fun hspec => ?_
        exact hslots desired hrules d hd (hslot.trans (congrArg RuleSpec.slot hspec))
    have hfilter := hworks.spares _ helsewhere
    have hmem : ∀ rules : List RouterRule,
        r ∈ (rules.filter fun x => x.spec == r.spec) ↔ r ∈ rules := fun rules =>
      List.mem_filter.trans (and_iff_left (beq_self_eq_true _))
    rw [← hmem t.site.rules, hfilter, hmem]

/-! ## One Service -/

/-- **Drift is corrected.** -/
theorem correct_gives (hs : Compatible defaults s) (hview : view ∈ managed s.services)
    (hrules : Desired.rulesFor view defaults = .ok desired) :
    Gives (fun v t => v.IsSmooth ∧ Works view.key desired s t ∧
        Converged view.key desired t.site.rules)
      (correct (Drift.compare view.key view.reference desired s.site.rules)) s := by
  have hwanted := Desired.rulesFor_wanted hrules
  have hnd := hs.sound.ids_nodup
  refine (publish_gives _ _ s).andThen ?_
  rintro _ _ rfl
  refine (execute_gives hs.sound (hs.valid view hview) hwanted
    (Plan.wellFormed_correctionPlan view.reference hwanted.asked hnd)
    (Drift.settles_hosts view.reference hwanted hnd) Drift.map_fst_hosts).andThen ?_
  rintro r t ⟨rfl, hworks, hconverged⟩
  refine (Lapsing.silent (asks_request (r := .memory (.forget _)) trivial)
    t).gives.andThen ?_
  intro _ u hlapses
  refine (publish_gives _ _ _).andThen ?_
  rintro _ _ rfl
  refine ensures_done ⟨Or.inr ⟨_, rfl⟩,
    hworks.trans (.of_lapses hworks.sound hlapses), ?_⟩
  rw [hlapses.rules]
  exact hconverged

theorem revisit_gives (hs : Compatible defaults s) (hview : view ∈ managed s.services)
    (hrules : Desired.rulesFor view defaults = .ok desired) :
    Gives (fun v t => v.IsSmooth ∧ Works view.key desired s t ∧
        Converged view.key desired t.site.rules)
      (revisit view desired) s := by
  refine (listRules_silent s).gives.andThen ?_
  rintro r _ ⟨rfl, rfl⟩
  dsimp only
  split
  · exact correct_gives hs hview hrules
  · next hcalm =>
      exact ensures_done ⟨Or.inl rfl, .refl hs.sound,
        Drift.converged_of_calm view.reference
        (hs.valid view hview) (Desired.rulesFor_wanted hrules) hs.sound.ids_nodup
        (Bool.eq_false_iff.mpr hcalm)⟩

/-- A Service that is visited owns what it wants then, if what the old listing
says of it is still so. -/
theorem visit_gives (hfirst : first.site.Sound) (hs : Compatible defaults s)
    (hview : view ∈ managed s.services)
    (hstill : Settled defaults view first → Settled defaults view s) :
    Gives (fun v t => v.IsSmooth ∧ Advances defaults s t ∧ Settled defaults view t)
      (visit defaults first.site.rules view) s := by
  obtain ⟨desired, hrules⟩ := hs.wants view hview
  have hsettled : ∀ u : Scene,
      Converged view.key desired u.site.rules → Settled defaults view u := by
    intro u hconverged wanted hwants
    obtain rfl := Except.ok.inj (hrules.symm.trans hwants)
    exact hconverged
  refine (claimDesired_silent hs.sound hrules
    (hs.free view hview desired hrules)).gives.andThen ?_
  rintro r s₁ ⟨rfl, hsame, hclaimed⟩
  have hkept : Settled defaults view s → Settled defaults view s₁ := by
    intro h wanted hwants
    rw [hsame]
    exact h wanted hwants
  have hadvances := Advances.of_works hs hview hrules hclaimed hkept
  have hview₁ : view ∈ managed s₁.services := by
    rw [hadvances.services]
    exact hview
  dsimp only
  split
  · refine locked_ensures (fun _ _ _ _ => trivial) ?_
    refine (revisit_gives hadvances.compatible hview₁ hrules).imp ?_
    rintro v t ⟨hv, hworks, hconverged⟩
    have hmended := hsettled t hconverged
    have hlater :=
      Advances.of_works hadvances.compatible hview₁ hrules hworks fun _ => hmended
    exact ⟨hv, hadvances.trans hlater, hmended⟩
  · next hcalm =>
      have hconverged := Drift.converged_of_calm view.reference (hs.valid view hview)
        (Desired.rulesFor_wanted hrules) hfirst.ids_nodup (Bool.eq_false_iff.mpr hcalm)
      exact ensures_done ⟨Or.inl rfl, hadvances,
        hkept (hstill (hsettled first hconverged))⟩

theorem visit_silent (hs : Compatible defaults s) (hview : view ∈ managed s.services)
    (hfirst : first.site.Sound) (hsettled : Settled defaults view first) :
    Silent (fun v t => v = .calm ∧ t.site.rules = s.site.rules ∧
      Advances defaults s t) (visit defaults first.site.rules view) s := by
  obtain ⟨desired, hrules⟩ := hs.wants view hview
  refine (claimDesired_silent hs.sound hrules
    (hs.free view hview desired hrules)).andThen ?_
  rintro r t ⟨rfl, hsame, hclaimed⟩
  have hcalm := Drift.calm_of_converged view.reference (Desired.rulesFor_wanted hrules)
    hfirst.ids_nodup (hsettled desired hrules)
  dsimp only
  rw [if_neg (by simp [hcalm])]
  refine ensures_done ⟨rfl, hsame,
    .of_works hs hview hrules hclaimed fun h wanted hwants => ?_⟩
  rw [hsame]
  exact h wanted hwants

/-! ## All Services -/

theorem visitAll_gives (hfirst : first.site.Sound) (hs : Advances defaults first s)
    (hviews : ∀ view ∈ views, view ∈ managed first.services) :
    Gives (fun visits t => visits.length = views.length ∧ (∀ v ∈ visits, v.IsSmooth) ∧
        Advances defaults first t ∧ ∀ view ∈ managed first.services,
          view ∈ views ∨ Settled defaults view s → Settled defaults view t)
      (visitAll defaults first.site.rules views) s := by
  induction views generalizing s with
  | nil =>
      refine ensures_done ⟨rfl, fun v hv => absurd hv List.not_mem_nil, hs,
        fun view _ h => ?_⟩
      exact h.resolve_left List.not_mem_nil
  | cons view views ih =>
      refine (isCancelled_silent s).gives.andThen ?_
      rintro seen s ⟨rfl, rfl⟩
      have hview := hviews view List.mem_cons_self
      have hview' : view ∈ managed s.services := by
        rw [hs.services]
        exact hview
      refine (visit_gives hfirst hs.compatible hview' (hs.settled view hview)).andThen ?_
      rintro v s₁ ⟨hv, hadvances, hsettled⟩
      rw [if_neg (by simp [hv.not_endsPass])]
      refine (ih (hs.trans hadvances) fun w hw =>
        hviews w (List.mem_cons_of_mem _ hw)).andThen ?_
      rintro visits t ⟨hlength, hsmooth, hall, hrest⟩
      refine ensures_done ⟨by simp [hlength], ?_, hall, fun w hw h => hrest w hw ?_⟩
      · intro v' hv'
        rcases List.mem_cons.mp hv' with rfl | hv'
        · exact hv
        · exact hsmooth v' hv'
      · rcases h with hmem | hown
        · rcases List.mem_cons.mp hmem with rfl | hmem
          · exact Or.inr hsettled
          · exact Or.inl hmem
        · refine Or.inr (hadvances.settled w ?_ hown)
          rw [hs.services]
          exact hw

theorem visitAll_silent (hfirst : first.site.Sound) (hs : Advances defaults first s)
    (hviews : ∀ view ∈ views, view ∈ managed first.services)
    (hsettled : ∀ view ∈ views, Settled defaults view first) :
    Silent (fun visits t => (∀ v ∈ visits, v = .calm) ∧ t.site.rules = s.site.rules ∧
        Advances defaults first t)
      (visitAll defaults first.site.rules views) s := by
  induction views generalizing s with
  | nil => exact ensures_done ⟨fun v hv => absurd hv List.not_mem_nil, rfl, hs⟩
  | cons view views ih =>
      refine (isCancelled_silent s).andThen ?_
      rintro seen s ⟨rfl, rfl⟩
      have hview' : view ∈ managed s.services := by
        rw [hs.services]
        exact hviews view List.mem_cons_self
      have hfirst' := hsettled view List.mem_cons_self
      refine (visit_silent hs.compatible hview' hfirst hfirst').andThen ?_
      rintro v s₁ ⟨rfl, hsame, hadvances⟩
      refine (ih (hs.trans hadvances) (fun w hw => hviews w (List.mem_cons_of_mem _ hw))
        fun w hw => hsettled w (List.mem_cons_of_mem _ hw)).andThen ?_
      rintro visits t ⟨hcalm, hrules, hall⟩
      refine ensures_done ⟨?_, hrules.trans hsame, hall⟩
      intro v hv
      rcases List.mem_cons.mp hv with rfl | hv
      · rfl
      · exact hcalm v hv

/-! ## The pass -/

theorem pass_gives (hs : Compatible defaults s) :
    Gives (fun r t => (∃ summary, r = .ok summary ∧ summary.failed = 0 ∧
        summary.skipped = 0 ∧
        summary.corrected = summary.drifted) ∧
        Advances defaults s t ∧ ∀ view ∈ managed s.services, Settled defaults view t)
      (pass defaults).run s := by
  refine (listServices_silent s).gives.adaptThenOk ?_
  rintro s₁ rfl
  refine (listRules_silent s₁).gives.adaptThenOk ?_
  rintro s₂ rfl
  refine (visitAll_gives hs.sound (.refl hs) fun view hview => hview).liftThen ?_
  rintro visits t ⟨hlength, hsmooth, hadvances, hsettled⟩
  refine ensures_done ⟨⟨_, rfl, ?_, ?_, ?_⟩, hadvances, fun view hview =>
    hsettled view hview (Or.inl hview)⟩
  · exact List.countP_eq_zero.mpr fun v hv => by simp [(hsmooth v hv).not_failed]
  · show (managed s₂.services).length - visits.length = 0
    omega
  · exact List.countP_congr fun v hv => by rw [(hsmooth v hv).drifted]

theorem pass_silent (hs : Compatible defaults s)
    (hsettled : ∀ view ∈ managed s.services, Settled defaults view s) :
    Silent (fun r t => (∃ summary, r = .ok summary ∧ summary.drifted = 0) ∧
        t.site.rules = s.site.rules ∧ t.services = s.services)
      (pass defaults).run s := by
  refine (listServices_silent s).adaptThenOk ?_
  rintro s₁ rfl
  refine (listRules_silent s₁).adaptThenOk ?_
  rintro s₂ rfl
  refine (visitAll_silent hs.sound (.refl hs) (fun view hview => hview)
    hsettled).liftThen ?_
  rintro visits t ⟨hcalm, hrules, hadvances⟩
  refine ensures_done ⟨⟨_, rfl, ?_⟩, hrules, hadvances.services⟩
  exact List.countP_eq_zero.mpr fun v hv => by simp [hcalm v hv, Visit.isDrifted]

/-- **A pass converges.** Afterwards every Service that is looked after
owns what it wants, foreign rules are as they were, and nobody was failed
or left out. Another pass then finds nothing to correct: it writes nothing
and tells nothing. -/
theorem pass_converges (hs : Compatible defaults s) :
    (∃ r t, Leads May (pass defaults).run s r t) ∧
    ∀ r t, Leads May (pass defaults).run s r t →
      (∃ summary, r = .ok summary ∧ summary.failed = 0 ∧ summary.skipped = 0 ∧
        summary.corrected = summary.drifted) ∧
      (∀ view ∈ managed s.services, ∃ desired,
        Desired.rulesFor view defaults = .ok desired ∧
        Converged view.key desired t.site.rules) ∧
      (∀ r, Foreign defaults (managed s.services) r →
        (r ∈ t.site.rules ↔ r ∈ s.site.rules)) ∧
      (∃ r' u, Leads May (pass defaults).run t r' u) ∧
      ∀ steps result u, Course May (pass defaults).run t steps result u →
        Along (fun _ x _ => x.1.isOutward = false) t steps ∧
        ∀ r' ∈ result, (∃ summary, r' = .ok summary ∧ summary.drifted = 0) ∧
          u.site.rules = t.site.rules ∧ u.services = t.services := by
  refine ⟨exists_leads _ s, fun r t hleads => ?_⟩
  obtain ⟨hsummary, hadvances, hsettled⟩ := hleads.of_ensures (pass_gives hs)
  refine ⟨hsummary, fun view hview => ?_, hadvances.foreign, exists_leads _ t, ?_⟩
  · obtain ⟨desired, hrules⟩ := hs.wants view hview
    exact ⟨desired, hrules, hsettled view hview desired hrules⟩
  · intro steps result u hcourse
    refine hcourse.of_ensures (pass_silent hadvances.compatible fun view hview => ?_)
    refine hsettled view ?_
    rw [← hadvances.services]
    exact hview

end

end Fleet

/-! ## Two Services, one of them with a rule on the other's slot -/

namespace Sample

open Fleet

def neighbour : ServiceObject :=
  { service with
    name := some "api"
    annotations := [(Mark.ports, "http:443")]
    ports := [⟨some "http", 8443, none⟩] }

def neighbourView : ServiceView :=
  { view with
    key := ⟨"default", "api"⟩
    annotations := neighbour.annotations
    ports := [⟨"http", 8443, "TCP"⟩]
    reference := neighbour.reference }

def neighbourWish : DesiredRule :=
  { owner := .of neighbourView.key "http"
    spec := { (wish "http" 443 8443).spec with name := "default/api:http" } }

def byHand : RouterRule := ⟨"b", { (wish "http" 22 22).spec with name := "by hand" }⟩

def fleet : Scene :=
  ⟨⟨[⟨"a", (wish "old" 443 8443).spec⟩, byHand], ["b", "a"], .empty, false⟩,
    [service, neighbour]⟩

theorem managed_fleet : managed fleet.services = [view, neighbourView] := by
  rfl

theorem rulesFor_view : Desired.rulesFor view {} = .ok [wish "http" 80 80] := by
  rfl

theorem rulesFor_neighbour :
    Desired.rulesFor neighbourView {} = .ok [neighbourWish] := by
  rfl

theorem compatible_fleet : Compatible {} fleet := by
  refine ⟨⟨by decide, by decide⟩, ?_, ?_, ?_, ?_, ?_⟩
  all_goals rw [managed_fleet]
  · decide
  · rintro v hv
    rcases List.mem_pair.mp hv with rfl | rfl
    · exact key_valid
    · exact ⟨by decide, by decide⟩
  · rintro v hv
    rcases List.mem_pair.mp hv with rfl | rfl
    · exact ⟨_, rulesFor_view⟩
    · exact ⟨_, rulesFor_neighbour⟩
  · rintro v hv w hw hne desired wanted hrules hwants
    rcases List.mem_pair.mp hv with rfl | rfl <;>
      rcases List.mem_pair.mp hw with rfl | rfl
    · exact absurd rfl hne
    · obtain rfl := Except.ok.inj (rulesFor_view.symm.trans hrules)
      obtain rfl := Except.ok.inj (rulesFor_neighbour.symm.trans hwants)
      exact List.disjoint_singleton.mpr (by decide)
    · obtain rfl := Except.ok.inj (rulesFor_neighbour.symm.trans hrules)
      obtain rfl := Except.ok.inj (rulesFor_view.symm.trans hwants)
      exact List.disjoint_singleton.mpr (by decide)
    · exact absurd rfl hne
  · rintro v - desired - port - k hholder
    have hnone : fleet.site.holder? port = none := rfl
    exact absurd (hnone.symm.trans hholder) (by simp)

theorem foreign_byHand : Foreign {} (managed fleet.services) byHand := by
  rw [managed_fleet]
  rintro v hv
  rcases List.mem_pair.mp hv with rfl | rfl
  · refine ⟨by decide, fun desired hrules => ?_⟩
    obtain rfl := Except.ok.inj (rulesFor_view.symm.trans hrules)
    decide
  · refine ⟨by decide, fun desired hrules => ?_⟩
    obtain rfl := Except.ok.inj (rulesFor_neighbour.symm.trans hrules)
    decide

end Sample

open Sample in
theorem Fleet.pass_converges_sample :
    Compatible {} fleet ∧ ∃ summary t, Leads May (pass {}).run fleet (.ok summary) t ∧
      summary.failed = 0 ∧ summary.skipped = 0 ∧ summary.corrected = summary.drifted ∧
      Converged view.key [wish "http" 80 80] t.site.rules ∧
      Converged neighbourView.key [neighbourWish] t.site.rules ∧
      byHand ∈ t.site.rules := by
  obtain ⟨⟨r, t, hleads⟩, hall⟩ := pass_converges compatible_fleet
  obtain ⟨⟨summary, rfl, hsummary⟩, howned, hforeign, -⟩ := hall r t hleads
  rw [managed_fleet] at howned
  obtain ⟨desired, hrules, hview⟩ := howned view List.mem_cons_self
  obtain rfl := Except.ok.inj (rulesFor_view.symm.trans hrules)
  obtain ⟨wanted, hwants, hneighbour⟩ :=
    howned neighbourView (List.mem_cons_of_mem _ List.mem_cons_self)
  obtain rfl := Except.ok.inj (rulesFor_neighbour.symm.trans hwants)
  exact ⟨compatible_fleet, summary, t, hleads, hsummary.1, hsummary.2.1,
    hsummary.2.2, hview, hneighbour,
    (hforeign byHand foreign_byHand).mpr (by decide)⟩

end PortForwarding
