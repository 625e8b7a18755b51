import PortForwarding.Proofs.Desired
import PortForwarding.Proofs.Pass.Anatomy
import PortForwarding.Proofs.Plan.Execution
import PortForwarding.Proofs.Plan.Forfeit
import PortForwarding.Proofs.Simulation.World

/-!
# The reservations after a pass

A pass for a Service that is converged reserves the ports that it wants, gives
back what its plan gives back, and keeps nothing else. What is left is not always
what is wanted: a port is lost where a second owned rule on it is deleted beside
one that needs no change (`Plan.Forfeits`), although the Service goes on
forwarding there. `pass_reserves` says that this is the only way to lose one.
-/

namespace PortForwarding.Reconcile

open Listing Script Plan Takeover

variable {denying : Prop} {settings : CleanupSettings} {defaults : RuleDefaults}
  {service : ServiceObject} {view : ServiceView} {desired : List DesiredRule}
  {s t : Site} {action : Action}

/-! ## The stages of a pass -/

/-- **What a Service wants is worked out and reserved as by `Desired.calculate`**,
on the reservations in memory. -/
theorem claimDesired_calculates {result : Except DesiredError (List DesiredRule)}
    (h : Leads (Site.May denying) (claimDesired view defaults).run s result t) :
    match Desired.calculate s.memory.reservations view defaults with
    | .ok (rules, claimed) => result = .ok rules ∧
        t = { s with memory := { s.memory with reservations := claimed } }
    | .error e => result = .error e ∧ t = s := by
  unfold claimDesired at h
  unfold Desired.calculate
  cases hrules : Desired.rulesFor view defaults with
  | error e =>
      simp only [hrules] at h
      exact leads_done.mp h
  | ok rules =>
      simp only [hrules] at h
      obtain ⟨reply, s₁, hclaim, hrest⟩ := leads_bind.mp h
      obtain ⟨instant, hreply, rfl⟩ := leads_memory.mp hclaim
      cases hclaimed :
          s.memory.reservations.claim view.key (Desired.externalPorts rules) with
      | error c =>
          simp only [MemoryCall.answer, hclaimed] at hreply hrest ⊢
          subst hreply
          exact leads_done.mp hrest
      | ok claimed =>
          simp only [MemoryCall.answer, hclaimed] at hreply hrest ⊢
          subst hreply
          exact leads_done.mp hrest

theorem claimDesired_leads
    (h : Leads (Site.May denying) (claimDesired view defaults).run s
      (.ok desired) t) :
    Desired.rulesFor view defaults = .ok desired ∧ ∃ claimed,
      s.memory.reservations.claim view.key (Desired.externalPorts desired) =
        .ok claimed ∧
      t = { s with memory := { s.memory with reservations := claimed } } := by
  have hcalculated := claimDesired_calculates h
  unfold Desired.calculate at hcalculated
  cases hrules : Desired.rulesFor view defaults with
  | error e =>
      simp only [hrules] at hcalculated
      exact absurd hcalculated.1 (by simp)
  | ok rules =>
      cases hclaim :
          s.memory.reservations.claim view.key (Desired.externalPorts rules) with
      | error c =>
          simp only [hrules, hclaim] at hcalculated
          exact absurd hcalculated.1 (by simp)
      | ok claimed =>
          simp only [hrules, hclaim] at hcalculated
          obtain ⟨heq, ht⟩ := hcalculated
          obtain rfl := Except.ok.inj heq
          exact ⟨rfl, claimed, hclaim, ht⟩

theorem listRules_leads {rules : List RouterRule}
    (h : Leads (Site.May denying) listRules.run s (.ok rules) t) :
    rules = s.rules ∧ t = s := by
  obtain ⟨rfl, hrules | ⟨e, heq⟩⟩ := Site.may_list (leads_listRules.mp h)
  · exact ⟨Except.ok.inj hrules, rfl⟩
  · exact absurd heq (by simp)

/-- Nobody else writes to the router, so that the second listing is the first. -/
theorem planAgainstRouter_leads {key : ServiceKey} {plan : List Operation}
    (h : Leads (Site.May denying) (planAgainstRouter key desired).run s
      (.ok plan) t) :
    t = s ∧ plan = planFor key desired s.rules (detect key desired s.rules) := by
  obtain ⟨rules, s₁, hlist, hrest⟩ := leads_tryBind_ok.mp h
  obtain ⟨rfl, rfl⟩ := listRules_leads hlist
  cases hdetect : detect key desired s₁.rules with
  | nil =>
      simp only [hdetect] at hrest
      obtain ⟨heq, rfl⟩ := leads_tryPure.mp hrest
      exact ⟨rfl, Except.ok.inj heq⟩
  | cons op ops =>
      simp only [hdetect] at hrest
      obtain ⟨rules, s₂, hlist, hpure⟩ := leads_tryBind_ok.mp hrest
      obtain ⟨rfl, rfl⟩ := listRules_leads hlist
      obtain ⟨heq, rfl⟩ := leads_tryPure.mp hpure
      rw [← hdetect, revalidate_detect] at heq
      rw [← hdetect]
      exact ⟨rfl, Except.ok.inj heq⟩

/-- **What a successful convergence makes of the reservations.** -/
theorem converge_leads (hs : s.Sound)
    (h : Leads (Site.May denying) (converge defaults view).run s (.ok ()) t) :
    ∃ desired claimed, Desired.rulesFor view defaults = .ok desired ∧
      s.memory.reservations.claim view.key (Desired.externalPorts desired) =
        .ok claimed ∧
      let plan := planFor view.key desired s.rules (detect view.key desired s.rules)
      ∃ after : Reservations,
        after.Alike (plan.foldl (giveBack (targetedPorts plan)) claimed) ∧
        t.memory.reservations =
          after.retain view.key (Desired.externalPorts desired) := by
  obtain ⟨desired, s₁, hclaim, hlocked⟩ := leads_tryBind_ok.mp h
  obtain ⟨hrules, claimed, hclaimed, rfl⟩ := claimDesired_leads (leads_adapt_ok.mp hclaim)
  obtain ⟨plan, s₂, hplan, hrest⟩ := leads_tryBind_ok.mp (Site.lockedTry_leads hlocked)
  obtain ⟨rfl, rfl⟩ := planAgainstRouter_leads (leads_adapt_ok.mp hplan)
  obtain ⟨u, s₃, hexecute, hrest⟩ := leads_tryBind_ok.mp hrest
  obtain ⟨u, s₄, hretain, hrest⟩ := leads_tryBind_ok.mp hrest
  obtain ⟨u, s₅, hforget, hrest⟩ := leads_tryBind_ok.mp hrest
  obtain ⟨u, s₆, hannounce, hannotate⟩ := leads_tryBind_ok.mp hrest
  refine ⟨desired, claimed, hrules, hclaimed, s₃.memory.reservations, ?_, ?_⟩
  · have hsettles := settles_planFor s.rules (Desired.rulesFor_wanted hrules)
    refine execute_ok ?_ ?_ (leads_adapt_ok.mp hexecute)
    · exact hs.of_sublist (List.Sublist.refl _) rfl
    · exact hsettles.grounded hs.ids_nodup
  · have hafter := Site.KeepsReservations.run (Mark.asks_annotate _ trivial)
      (leads_adapt_ok.mp hannotate)
    have hannounced := Site.KeepsReservations.run (asks_announce _ fun _ => trivial)
      (leads_lift_ok.mp hannounce)
    have hforgot := Site.KeepsReservations.run (asks_forget _ trivial trivial)
      (leads_lift_ok.mp hforget)
    obtain ⟨instant, -, rfl⟩ := leads_memory.mp (leads_lift_ok.mp hretain)
    rw [hafter, hannounced, hforgot]
    rfl

/-- **Who holds what after a successful convergence**: the Service its wanted
ports less those that it forfeits, and no others. -/
theorem holder?_after_converge (hs : s.Sound)
    (h : Leads (Site.May denying) (converge defaults view).run s (.ok ()) t) :
    ∃ desired, Desired.rulesFor view defaults = .ok desired ∧
      (∀ d ∈ desired, t.holder? d.slot.external =
        if Forfeits view.key s.rules d then none else some view.key) ∧
      ∀ port, t.holder? port = some view.key →
        port ∈ Desired.externalPorts desired := by
  obtain ⟨desired, claimed, hrules, hclaimed, after, halike, hafter⟩ :=
    converge_leads hs h
  have hwanted := Desired.rulesFor_wanted hrules
  have hports := Desired.rulesFor_ports_nodup hrules
  unfold Site.holder?
  rw [hafter]
  refine ⟨desired, hrules, fun d hd => ?_, fun port hholder => ?_⟩
  · have hmem : d.slot.external ∈ Desired.externalPorts desired := List.mem_map_of_mem hd
    have hclaim : claimed.holder? d.slot.external = some view.key := by
      rw [(Reservations.holder?_of_claim hclaimed).2, if_pos hmem]
    -- what is wanted is never trimmed, so that only the plan can have given it
    -- back
    rw [Reservations.holder?_retain, if_neg fun hboth => hboth.2 hmem, halike]
    exact holder?_after_planFor hwanted hports hs.ids_nodup hd hclaim
  · rw [Reservations.holder?_retain] at hholder
    split at hholder
    · exact absurd hholder (by simp)
    · next hkept =>
        by_contra hnot
        exact hkept ⟨hholder, hnot⟩

/-- A pass for a finalized Service that asks for ports succeeds only if it
converges. -/
theorem pass_leads (hview : ServiceView.of? service = .ok view)
    (hliving : view.deleting = false) (hqualifies : view.qualifies = true)
    (hfinalizer : view.hasFinalizer = true)
    (h : Leads (Site.May denying) (pass settings defaults service).run s
      (.ok action) t) :
    Leads (Site.May denying) (converge defaults view).run s (.ok ()) t := by
  rw [pass_eq_managed hview hliving hqualifies hfinalizer] at h
  rcases managed_cases h with ⟨-, hconverge⟩ | ⟨failure, u, heq, -, -⟩
  · exact hconverge
  · exact absurd heq (by simp)

/-! ## What a pass leaves -/

/-- One pass after another, for any Services and with any results. -/
inductive History (denying : Prop) : Site → Site → Prop where
  | start (s : Site) : History denying s s
  | pass {first s t : Site} {settings : CleanupSettings} {defaults : RuleDefaults}
      {service : ServiceObject} {result : Except PassFailure Action}
      (earlier : History denying first s)
      (now : Leads (Site.May denying) (pass settings defaults service).run s result t) :
      History denying first t

theorem History.sound {first : Site} (h : History denying first s)
    (hfirst : first.Sound) : s.Sound := by
  induction h with
  | start => exact hfirst
  | pass earlier now ih => exact ih.run now

/-- **After a successful pass a Service holds the ports that it wants, less those
that it forfeits**, and no others. Nobody else can claim a port that it holds; a
port that it forfeits is anybody's. -/
theorem pass_reserves {first : Site} (hfirst : first.Sound)
    (hhistory : History denying first s)
    (hview : ServiceView.of? service = .ok view) (hliving : view.deleting = false)
    (hqualifies : view.qualifies = true) (hfinalizer : view.hasFinalizer = true)
    (h : Leads (Site.May denying) (pass settings defaults service).run s
      (.ok action) t) :
    ∃ desired, Desired.rulesFor view defaults = .ok desired ∧
      (∀ port, port ∈ t.memory.reservations.portsOf view.key ↔
        ∃ d ∈ desired, d.slot.external = port ∧ ¬Forfeits view.key s.rules d) ∧
      ∀ d ∈ desired,
        (Forfeits view.key s.rules d → t.holder? d.slot.external = none) ∧
        (¬Forfeits view.key s.rules d → ∀ other, other ≠ view.key → ∀ ports,
          d.slot.external ∈ ports →
            ∃ c, t.memory.reservations.claim other ports = .error c) := by
  obtain ⟨desired, hrules, hheld, honly⟩ := holder?_after_converge (hhistory.sound hfirst)
    (pass_leads hview hliving hqualifies hfinalizer h)
  refine ⟨desired, hrules, fun port => ?_, fun d hd => ⟨fun hforfeits => ?_, ?_⟩⟩
  · rw [Reservations.mem_portsOf]
    constructor
    · intro hholder
      obtain ⟨d, hd, rfl⟩ := List.mem_map.mp (honly port hholder)
      refine ⟨d, hd, rfl, fun hforfeits => ?_⟩
      have hnone := hheld d hd
      rw [if_pos hforfeits] at hnone
      exact absurd (hnone.symm.trans hholder) (by simp)
    · rintro ⟨d, hd, rfl, hkeeps⟩
      have hsome := hheld d hd
      rw [if_neg hkeeps] at hsome
      exact hsome
  · rw [hheld d hd, if_pos hforfeits]
  · intro hkeeps other hother ports hmem
    have hsome := hheld d hd
    rw [if_neg hkeeps] at hsome
    exact Reservations.claim_error_of_holder hmem hsome (Ne.symm hother)

end PortForwarding.Reconcile

/-! ## A Service whose rule was made twice -/

namespace PortForwarding.Sample

open Simulation

def service : ServiceObject :=
  { «namespace» := some "default"
    name := some "web"
    uid := none
    annotations := [(Mark.ports, "http")]
    finalizers := [Mark.finalizer]
    deleting := false
    ports := [⟨some "http", 80, none⟩]
    ingress := [some "10.0.0.5"] }

def view : ServiceView :=
  { key := key
    annotations := service.annotations
    ports := [⟨"http", 80, "TCP"⟩]
    destination := some (.v4 10 0 0 5)
    deleting := false
    hasFinalizer := true
    reference := service.reference }

def world : World :=
  (World.empty.onRouter fun r =>
    (r.interfere (.seed (wish "http" 80 80).spec)).interfere
      (.seed (wish "http" 80 80).spec)).onCluster fun c => c.store key (.obj [])

def twice : Site :=
  ⟨[⟨"r1", (wish "http" 80 80).spec⟩, ⟨"r2", (wish "http" 80 80).spec⟩],
    ["r2", "r1"], .empty, false⟩

theorem twice_sound : twice.Sound :=
  ⟨by decide, by decide⟩

theorem world_showsAs : world.ShowsAs twice :=
  ⟨rfl, ⟨rfl, by decide +kernel, by decide +kernel⟩, rfl⟩

theorem exists_pass :
    ∃ t, Script.Leads (Site.May True) (Reconcile.pass {} {} service).run twice
      (.ok .awaitChange) t ∧ t.rules = [⟨"r1", (wish "http" 80 80).spec⟩] ∧
        t.holder? 80 = none := by
  obtain ⟨t, hleads, hshows⟩ := World.leads 0 world_showsAs twice_sound
    (Reconcile.pass {} {} service).run
  generalize hrun :
    Script.run (World.answer 0) (Reconcile.pass {} {} service).run world = run
    at hleads hshows
  have hresult : run.1 = .ok .awaitChange := by
    rw [← hrun]
    decide +kernel
  have hrules : run.2.router.rules = [⟨"r1", (wish "http" 80 80).spec⟩] := by
    rw [← hrun]
    decide +kernel
  have hholder : run.2.memory.reservations.holder? 80 = none := by
    rw [← hrun]
    decide +kernel
  rw [hresult] at hleads
  refine ⟨t, hleads, hshows.router.rules.trans hrules, ?_⟩
  unfold Site.holder?
  rw [hshows.memory, hholder]

end PortForwarding.Sample

namespace PortForwarding.Reconcile

open Listing Script Plan Sample

theorem pass_reserves_sample :
    ∃ t desired, Desired.rulesFor view {} = .ok desired ∧
      (∀ port, port ∈ t.memory.reservations.portsOf view.key ↔
        ∃ d ∈ desired, d.slot.external = port ∧ ¬Forfeits view.key twice.rules d) ∧
      ∀ d ∈ desired,
        (Forfeits view.key twice.rules d → Site.holder? t d.slot.external = none) ∧
        (¬Forfeits view.key twice.rules d → ∀ other, other ≠ view.key → ∀ ports,
          d.slot.external ∈ ports →
            ∃ c, t.memory.reservations.claim other ports = .error c) := by
  obtain ⟨t, h, -⟩ := exists_pass
  exact ⟨t, pass_reserves twice_sound (.start twice) rfl rfl (by decide) rfl h⟩

/-- **A port is lost on which the Service goes on forwarding.** Nobody held any
port before the pass, and the wanted rule is on the router after it. -/
theorem pass_loses_port :
    ∃ (s t : Site) (service : ServiceObject) (view : ServiceView) (d : DesiredRule),
      s.Sound ∧ (∀ port, s.holder? port = none) ∧ ServiceView.of? service = .ok view ∧
      view.deleting = false ∧ view.qualifies = true ∧ view.hasFinalizer = true ∧
      Desired.rulesFor view {} = .ok [d] ∧
      Leads (Site.May True) (pass {} {} service).run s (.ok .awaitChange) t ∧
      (∃ r ∈ t.rules, r.isOwnedBy view.key = true ∧ Meets d r) ∧
      t.holder? d.slot.external = none := by
  obtain ⟨t, h, hrules, hholder⟩ := exists_pass
  refine ⟨twice, t, service, view, wish "http" 80 80, twice_sound, fun _ => rfl,
    rfl, rfl, by decide, rfl, rfl, h,
    ⟨⟨"r1", (wish "http" 80 80).spec⟩, ?_, by decide, Meets.of_spec_eq rfl⟩,
    hholder⟩
  rw [hrules]
  exact List.mem_singleton.mpr rfl

end PortForwarding.Reconcile
