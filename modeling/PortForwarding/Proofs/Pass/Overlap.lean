import PortForwarding.Pass.Reconcile
import PortForwarding.Proofs.Desired
import PortForwarding.Proofs.Shared

/-!
# Passes beside each other

What both kinds of passes need while the other agent acts as well. Each Service
has its side (`Side`), where its wishes are at home (`Home`) and where a plan of
its own is carried out to its end (`execute_keeps`). Everything else in a pass is
`Quiet` or done under a lock; so whoever gives the lock back leaves the Service
with what it took the Service to want (`Leaves`).
-/

namespace PortForwarding.Territory

open Listing Script Shared

variable {T : Territory} {listed : List ServiceObject} {me : Agent} {s t : Shared}
  {side : Slot → Bool} {key : ServiceKey} {view : ServiceView}
  {defaults : RuleDefaults} {settings : CleanupSettings}
  {desired : List DesiredRule} {P : Shared → Prop}

/-! ## Sides -/

/-- The slots of a Service: the territory, if it is the one that this belongs to. -/
def Side (T : Territory) (key : ServiceKey) (side : Slot → Bool) : Prop :=
  (key = T.key ∧ side = T.zone) ∨ (key ∈ T.others ∧ side = outside T.zone)

theorem Side.owned (h : T.Side key side) (hs : T.Orderly s) :
    ∀ r ∈ s.site.rules, r.isOwnedBy key = true → side r.slot = true := by
  intro r hr howned
  rcases h with ⟨rfl, rfl⟩ | ⟨hother, rfl⟩
  · exact (hs.fits r hr).own howned
  · have hout : T.zone r.slot = false := (hs.fits r hr).others key hother howned
    unfold outside
    rw [hout]
    rfl

theorem Side.fits {spec : RuleSpec} (h : T.Side key side)
    (howned : spec.isOwnedBy key = true) (hslot : side spec.slot = true) :
    T.Fits spec := by
  rcases h with ⟨rfl, rfl⟩ | ⟨hother, rfl⟩
  · refine ⟨fun _ => hslot, fun other hmem hother => ?_⟩
    obtain rfl := RuleSpec.isOwnedBy_unique howned hother
    exact absurd hmem T.key_notMem
  · have hout : T.zone spec.slot = false := by simpa [outside] using hslot
    refine ⟨fun hown => ?_, fun _ _ _ => hout⟩
    obtain rfl := RuleSpec.isOwnedBy_unique howned hown
    exact absurd hother T.key_notMem

/-- What the Service wants, in this version, is on its side. -/
structure Home (T : Territory) (defaults : RuleDefaults) (view : ServiceView)
    (side : Slot → Bool) : Prop where
  valid : view.key.Valid
  owns : T.Side view.key side
  slots : ∀ desired, Desired.rulesFor view defaults = .ok desired →
    ∀ d ∈ desired, side d.slot = true

theorem Home.fits (h : T.Home defaults view side)
    (hrules : Desired.rulesFor view defaults = .ok desired) :
    ∀ d ∈ desired, side d.slot = true ∧ T.Fits d.spec := by
  intro d hd
  have hslot := h.slots desired hrules d hd
  have howned : RouterRule.isOwnedBy ⟨"", d.spec⟩ view.key = true :=
    (Desired.rulesFor_wanted hrules).isOwnedBy h.valid hd rfl
  exact ⟨hslot, h.owns.fits howned hslot⟩

/-- The agent is alone on the side of the Service, which owns there what
it wants. -/
structure Mended (T : Territory) (me : Agent) (side : Slot → Bool) (P : Shared → Prop)
    (key : ServiceKey) (desired : List DesiredRule) (s : Shared) : Prop where
  kept : P s
  alone : T.Alone me side s
  converged : Converged key desired (within side s.site.rules)

theorem Mended.rely (hP : T.Bears me side P) (h : T.Mended me side P key desired s)
    (hrely : T.Rely me s t) : T.Mended me side P key desired t := by
  obtain ⟨halone, hrules⟩ := h.alone.rely hrely
  refine ⟨hP.rely h.kept hrely, halone, ?_⟩
  rw [hrules]
  exact h.converged

/-- **A plan that settles what the Service wants is carried out to its end.** -/
theorem execute_keeps {hosts : List Hosting} {plan : List Operation}
    (hP : T.Bears me side P) (hs : P s) (halone : T.Alone me side s)
    (hhome : T.Home defaults view side)
    (hrules : Desired.rulesFor view defaults = .ok desired)
    (hhosts : hosts.map Prod.fst = desired)
    (hplan : Plan.Settles view.key (within side s.site.rules) hosts plan) :
    T.Keeps listed me (fun r t => r = .ok () ∧ T.Mended me side P view.key desired t)
      (Plan.execute plan).run s := by
  have hnd : (ids (within side s.site.rules)).Nodup :=
    ids_within_nodup halone.orderly.sound.ids_nodup
  have hbelongs : ∀ op ∈ plan, op.kind ≠ .delete →
      side op.rule.slot = true ∧ T.Fits op.rule.spec := by
    intro op hop hk
    have hmem := hplan.rule_mem hop hk
    rw [hhosts] at hmem
    exact hhome.fits hrules _ hmem
  refine (executeAfter_keeps hP hs halone (hplan.grounded hnd) hbelongs _ []).imp ?_
  rintro r t ⟨hr, ht, halone', hbalance⟩
  exact ⟨hr, ht, halone',
    hplan.converged_of_balance hhome.valid (Desired.rulesFor_wanted hrules)
    hnd hhosts hbalance⟩

/-- If the agent had the lock last, the Service owns something that it may want. -/
structure Leaves (T : Territory) (me : Agent) (wanted : List DesiredRule → Prop)
    (s : Shared) :
    Prop where
  orderly : T.Orderly s
  settled : s.last T.key = some me →
    ∃ desired, wanted desired ∧ Converged T.key desired (within T.zone s.site.rules)

variable {wanted : List DesiredRule → Prop}

theorem Leaves.spares (h : T.Leaves me wanted s) (hspares : T.Spares me s t) :
    T.Leaves me wanted t := by
  refine ⟨hspares.orderly h.orderly, fun hlast => ?_⟩
  obtain ⟨hlast, hrules⟩ := hspares.kept hlast
  rw [hrules]
  exact h.settled hlast

theorem bears_leaves : T.Bears me (outside T.zone) (T.Leaves me wanted) :=
  ⟨fun hs hrely => hs.spares hrely.toSpares, fun hs hwrote => hs.spares hwrote.spares⟩

/-- What a Service wants is worked out and reserved, without regard to the
router. -/
theorem claimDesired_keeps (view : ServiceView) (defaults : RuleDefaults)
    (s : Shared) :
    T.Keeps listed me (fun r t => T.Rely me s t ∧
      ∀ desired, r = .ok desired → Desired.rulesFor view defaults = .ok desired)
      (Reconcile.claimDesired view defaults).run s := by
  unfold Reconcile.claimDesired
  cases hrules : Desired.rulesFor view defaults with
  | error e => exact ensures_done ⟨.refl s, nofun⟩
  | ok rules =>
      refine quiet_andThen (asks_request trivial) fun reply t hrely => ?_
      cases reply with
      | error conflict => exact ensures_done ⟨hrely, nofun⟩
      | ok u =>
          refine ensures_done ⟨hrely, fun desired heq => ?_⟩
          rw [Except.ok.inj heq]

end PortForwarding.Territory
