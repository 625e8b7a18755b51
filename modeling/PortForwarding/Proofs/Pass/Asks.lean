import PortForwarding.Pass.Reconcile
import PortForwarding.Proofs.Script.Ensures

/-!
# What the stages of a pass ask for

Most stages of a pass have nothing to do with the router, or with the
reservations, or with the Service in the API. Which requests they make is said
here once; each theory brings its own class of requests that make no difference to
it.
-/

namespace PortForwarding

open Script

variable {Q : Request → Prop}

namespace Mark

variable {key : ServiceKey}

theorem asks_annotate (changes : List (String × Option String))
    (hpatch : Q (.store (.patch key (.annotations changes)))) :
    Asks Q (annotate key changes).run := by
  unfold annotate
  split
  · exact trivial
  · exact asks_request hpatch

theorem asks_addFinalizer (hget : Q (.store (.get key)))
    (hpatch : ∀ names, Q (.store (.patch key (.finalizers names)))) :
    Asks Q (addFinalizer key).run := by
  refine Asks.tryBind (asks_request hget) fun service => ?_
  split
  · exact trivial
  · exact asks_request (hpatch _)

theorem asks_removeFinalizer (hget : Q (.store (.get key)))
    (hpatch : ∀ names, Q (.store (.patch key (.finalizers (withoutOwn names))))) :
    Asks Q (removeFinalizer key).run := by
  have hcurrent : Asks Q (currentFinalizers key).run := by
    refine Asks.bind (asks_request hget) fun reply => ?_
    split
    · exact trivial
    · exact trivial
  refine hcurrent.tryBind fun names => ?_
  split
  · exact asks_request (hpatch _)
  · exact trivial

end Mark

namespace Compensation

theorem asks_carryOut (c : Compensation) (hrouter : ∀ call, Q (.router call)) :
    Asks Q c.carryOut.run := by
  have hadd : ∀ spec, Asks Q (addRule spec).run := fun spec => asks_request (hrouter _)
  cases c with
  | remove id =>
      refine Asks.bind (asks_request (hrouter _)) fun reply => ?_
      cases reply with
      | ok u => exact trivial
      | error e => cases e <;> exact trivial
  | restore id spec =>
      refine Asks.tryBind ?_ fun _ => trivial
      refine Asks.bind (asks_request (hrouter _)) fun reply => ?_
      cases reply with
      | ok rule => exact trivial
      | error e =>
          cases e with
          | notFound what => exact hadd spec
          | _ => exact trivial
  | recreate spec => exact Asks.tryBind (hadd spec) fun _ => trivial
  | nothing => exact trivial

end Compensation

namespace Completed

theorem asks_reclaim (c : Completed)
    (hclaim : ∀ key ports, Q (.memory (.claim key ports))) :
    Asks Q c.reclaim := by
  unfold reclaim
  cases c.released with
  | none => exact trivial
  | some port => exact Asks.bind (asks_request (hclaim _ _)) fun _ => trivial

theorem asks_undoAll (listing : Option (List RouterRule)) (cs : List Completed)
    (hrouter : ∀ call, Q (.router call))
    (hclaim : ∀ key ports, Q (.memory (.claim key ports))) :
    Asks Q (undoAll listing cs) := by
  induction cs with
  | nil => exact trivial
  | cons c cs ih =>
      refine Asks.bind (Compensation.asks_carryOut _ hrouter) fun reply => ?_
      cases reply with
      | error e => exact trivial
      | ok u =>
          exact Asks.bind (asks_reclaim c hclaim) fun _ => Asks.bind ih fun _ =>
            trivial

theorem asks_halt (cs : List Completed) (cause : HaltCause) (skipped : Nat)
    (hrouter : ∀ call, Q (.router call))
    (hclaim : ∀ key ports, Q (.memory (.claim key ports))) :
    Asks Q (halt cs cause skipped) := by
  refine Asks.bind ?_ fun _ => trivial
  unfold rollback
  cases cs with
  | nil => exact trivial
  | cons c cs =>
      exact Asks.bind (asks_request (hrouter _)) fun _ => asks_undoAll _ _ hrouter hclaim

end Completed

namespace Plan

theorem asks_attempt (op : Operation) (hrouter : ∀ call, Q (.router call)) :
    Asks Q (attempt op).run := by
  unfold attempt
  cases op.kind <;> cases op.existing
  case delete.some e => exact Asks.tryBind (asks_request (hrouter _)) fun _ => trivial
  case update.some e => exact asks_request (hrouter _)
  case create.some e => exact asks_request (hrouter _)
  case create.none => exact asks_request (hrouter _)
  all_goals exact trivial

theorem asks_releaseUnused (needed : List UInt16) (op : Operation)
    (hrelease : ∀ key port, Q (.memory (.release key port))) :
    Asks Q (releaseUnused needed op) := by
  unfold releaseUnused
  split
  · exact trivial
  · refine Asks.bind (asks_request (hrelease _ _)) fun released => ?_
    cases released <;> exact trivial

theorem asks_executeAfter (needed : List UInt16) (done : List Completed)
    (plan : List Operation) (hrouter : ∀ call, Q (.router call))
    (hcancelled : Q .cancelled)
    (hclaim : ∀ key ports, Q (.memory (.claim key ports)))
    (hrelease : ∀ key port, Q (.memory (.release key port))) :
    Asks Q (executeAfter needed done plan).run := by
  induction plan generalizing done with
  | nil => exact trivial
  | cons op plan ih =>
      refine Asks.bind (asks_request hcancelled) fun seen => ?_
      cases seen with
      | true =>
          exact Asks.bind (Completed.asks_halt _ _ _ hrouter hclaim) fun _ =>
            trivial
      | false =>
          refine Asks.bind (asks_attempt op hrouter) fun reply => ?_
          cases reply with
          | error e =>
              exact Asks.bind (Completed.asks_halt _ _ _ hrouter hclaim) fun _ =>
                trivial
          | ok applied =>
              exact Asks.bind (asks_releaseUnused needed op hrelease) fun _ =>
                ih _

end Plan

namespace Reconcile

theorem asks_claimDesired (view : ServiceView) (defaults : RuleDefaults)
    (hclaim : ∀ key ports, Q (.memory (.claim key ports))) :
    Asks Q (claimDesired view defaults).run := by
  unfold claimDesired
  cases Desired.rulesFor view defaults with
  | error e => exact trivial
  | ok rules =>
      refine Asks.bind (asks_request (hclaim _ _)) fun reply => ?_
      cases reply <;> exact trivial

theorem asks_planAgainstRouter (key : ServiceKey) (desired : List DesiredRule)
    (hlist : Q (.router .list)) : Asks Q (planAgainstRouter key desired).run := by
  refine Asks.tryBind (asks_request hlist) fun rules => ?_
  cases Takeover.detect key desired rules with
  | nil => exact trivial
  | cons op ops => exact Asks.tryBind (asks_request hlist) fun _ => trivial

theorem asks_forget (key : ServiceKey) (hforget : Q (.memory (.forget key.text)))
    (hreset : Q (.memory (.resetRetries key))) : Asks Q (forget key) :=
  Asks.bind (asks_request hforget) fun _ => asks_request hreset

theorem asks_letGo (view : ServiceView)
    (hclear : Q (.store (.patch view.key (.annotations (clearedState view)))))
    (hget : Q (.store (.get view.key)))
    (hpatch :
      ∀ names, Q (.store (.patch view.key (.finalizers (Mark.withoutOwn names)))))
    (hrelease : Q (.memory (.releaseAll view.key)))
    (hforget : Q (.memory (.forget view.key.text)))
    (hreset : Q (.memory (.resetRetries view.key))) :
    Asks Q (letGo view).run := by
  refine Asks.tryBind (Mark.asks_annotate _ hclear) fun _ => ?_
  refine Asks.tryBind (Mark.asks_removeFinalizer hget hpatch) fun _ => ?_
  refine Asks.tryBind (Asks.lift (asks_request hrelease)) fun _ => ?_
  exact Asks.lift (asks_forget _ hforget hreset)

theorem asks_announce {view : ServiceView} (plan : List Operation)
    (hpublish : ∀ note, Q (.publish view.reference note)) :
    Asks Q (announce view plan) := by
  induction plan with
  | nil => exact trivial
  | cons op plan ih => exact Asks.bind (asks_request (hpublish _)) fun _ => ih

theorem asks_recordFailure (view : ServiceView) (failure : PassFailure)
    (hobserve : Q (.memory (.observe view.key.text failure.message)))
    (hpublish : Q (.publish view.reference (failureNote failure))) (hnow : Q .now)
    (hnote : ∀ note,
      Q (.store (.patch view.key (.annotations [(Mark.errorContext, some note)])))) :
    Asks Q (recordFailure view failure) := by
  refine Asks.bind (asks_request hobserve) fun decision => ?_
  split
  · exact trivial
  · refine Asks.bind (asks_request hpublish) fun _ => ?_
    split
    · exact trivial
    · refine Asks.bind (asks_request hnow) fun time => ?_
      exact Asks.bind (Mark.asks_annotate _ (hnote _)) fun _ => trivial

theorem asks_managed (defaults : RuleDefaults) (view : ServiceView)
    (hrouter : ∀ call, Q (.router call)) (hmemory : ∀ call, Q (.memory call))
    (hannotate : ∀ changes, Q (.store (.patch view.key (.annotations changes))))
    (hpublish : ∀ note, Q (.publish view.reference note)) (hcancelled : Q .cancelled)
    (hnow : Q .now) (hlock : Q (.lock view.key)) (hunlock : Q (.unlock view.key)) :
    Asks Q (managed defaults view).run := by
  have hlocked : ∀ desired, Asks Q (convergeLocked view desired).run := by
    intro desired
    refine Asks.tryBind (Asks.adapt (asks_planAgainstRouter _ _ (hrouter _)))
      fun plan => ?_
    refine Asks.tryBind (Asks.adapt (Plan.asks_executeAfter _ _ _ hrouter hcancelled
      (fun _ _ => hmemory _) fun _ _ => hmemory _)) fun _ => ?_
    refine Asks.tryBind (Asks.lift (asks_request (hmemory _))) fun _ => ?_
    refine Asks.tryBind (Asks.lift (asks_forget _ (hmemory _) (hmemory _))) fun _ => ?_
    refine Asks.tryBind (Asks.lift (asks_announce plan hpublish)) fun _ => ?_
    exact Asks.adapt (Mark.asks_annotate _ (hannotate _))
  have hconverge : Asks Q (converge defaults view).run :=
    Asks.tryBind (Asks.adapt (asks_claimDesired _ _ fun _ _ => hmemory _)) fun desired =>
      Asks.locked hlock hunlock (hlocked desired)
  refine Asks.bind hconverge fun reply => ?_
  cases reply with
  | ok u => exact trivial
  | error failure =>
      exact Asks.bind (asks_recordFailure _ _ (hmemory _) (hpublish _) hnow
        fun _ => hannotate _) fun _ => trivial

end Reconcile

namespace Cleanup

theorem asks_removeAll (rules : List RouterRule)
    (hremove : ∀ id, Q (.router (.remove id))) : Asks Q (removeAll rules) := by
  induction rules with
  | nil => exact trivial
  | cons r rules ih =>
      refine Asks.bind (asks_request (hremove r.id)) fun reply => ?_
      split
      · exact ih.bind fun _ => trivial
      · exact ih.bind fun _ => trivial
      · exact ih.bind fun _ => trivial

theorem asks_removeOwned (key : ServiceKey) (hlist : Q (.router .list))
    (hremove : ∀ id, Q (.router (.remove id))) : Asks Q (removeOwned key).run := by
  refine Asks.tryBind (Asks.adapt (asks_request hlist)) fun rules => ?_
  refine Asks.tryBind (Asks.lift (asks_removeAll _ hremove)) fun p => ?_
  obtain ⟨removed, complaints⟩ := p
  dsimp only
  split
  · exact trivial
  · exact trivial

theorem asks_complete (view : ServiceView) (removed : Nat)
    (hannotate : ∀ changes, Q (.store (.patch view.key (.annotations changes))))
    (hget : Q (.store (.get view.key)))
    (hpatch :
      ∀ names, Q (.store (.patch view.key (.finalizers (Mark.withoutOwn names)))))
    (hrelease : Q (.memory (.releaseAll view.key)))
    (hpublish : ∀ note, Q (.publish view.reference note)) :
    Asks Q (complete view removed).run := by
  refine Asks.tryBind (Mark.asks_annotate _ (hannotate _)) fun _ => ?_
  refine Asks.tryBind (Mark.asks_removeFinalizer hget hpatch) fun _ => ?_
  refine Asks.tryBind (Asks.lift (asks_request hrelease)) fun _ => ?_
  exact Asks.lift (asks_request (hpublish _))

theorem asks_force (view : ServiceView) (record : CleanupRecord)
    (hnote : ∀ note,
      Q (.store (.patch view.key (.annotations [(Mark.cleanupState, some note)]))))
    (hget : Q (.store (.get view.key)))
    (hpatch :
      ∀ names, Q (.store (.patch view.key (.finalizers (Mark.withoutOwn names)))))
    (hrelease : Q (.memory (.releaseAll view.key)))
    (hpublish : ∀ note, Q (.publish view.reference note)) :
    Asks Q (force view record).run := by
  refine Asks.tryBind (Asks.lift (asks_request (hpublish _))) fun _ => ?_
  refine Asks.tryBind (Mark.asks_annotate _ (hnote _)) fun _ => ?_
  refine Asks.tryBind (Mark.asks_removeFinalizer hget hpatch) fun _ => ?_
  exact Asks.tryBind (Asks.lift (asks_request hrelease)) fun _ => trivial

theorem asks_attempt (settings : CleanupSettings) (view : ServiceView)
    (record : CleanupRecord) (hrouter : ∀ call, Q (.router call))
    (hannotate : ∀ changes, Q (.store (.patch view.key (.annotations changes))))
    (hget : Q (.store (.get view.key)))
    (hpatch :
      ∀ names, Q (.store (.patch view.key (.finalizers (Mark.withoutOwn names)))))
    (hrelease : Q (.memory (.releaseAll view.key)))
    (hpublish : ∀ note, Q (.publish view.reference note)) (hnow : Q .now) :
    Asks Q (attempt settings view record).run := by
  refine Asks.tryBind (Asks.lift (asks_request hnow)) fun time => ?_
  refine Asks.tryBind (Mark.asks_annotate _ (hannotate _)) fun _ => ?_
  refine Asks.tryBind (Asks.lift (asks_removeOwned _ (hrouter _) fun _ =>
    hrouter _)) fun reply => ?_
  cases reply with
  | ok removed =>
      exact Asks.tryBind (asks_complete _ _ hannotate hget hpatch hrelease
        hpublish) fun _ => trivial
  | error error =>
      exact Asks.tryBind (Mark.asks_annotate _ (hannotate _)) fun _ => trivial

theorem asks_pass (settings : CleanupSettings) (view : ServiceView)
    (hrouter : ∀ call, Q (.router call))
    (hannotate : ∀ changes, Q (.store (.patch view.key (.annotations changes))))
    (hget : Q (.store (.get view.key)))
    (hpatch :
      ∀ names, Q (.store (.patch view.key (.finalizers (Mark.withoutOwn names)))))
    (hrelease : Q (.memory (.releaseAll view.key)))
    (hpublish : ∀ note, Q (.publish view.reference note)) (hnow : Q .now) :
    Asks Q (pass settings view).run := by
  refine Asks.tryBind (Asks.lift (asks_request hnow)) fun time => ?_
  split
  · exact trivial
  · split
    · exact asks_force _ _ (fun _ => hannotate _) hget hpatch hrelease hpublish
    · exact asks_attempt _ _ _ hrouter hannotate hget hpatch hrelease hpublish hnow

end Cleanup

namespace Reconcile

theorem asks_cleanUp (settings : CleanupSettings) (view : ServiceView)
    (hrouter : ∀ call, Q (.router call)) (hmemory : ∀ call, Q (.memory call))
    (hannotate : ∀ changes, Q (.store (.patch view.key (.annotations changes))))
    (hget : Q (.store (.get view.key)))
    (hpatch :
      ∀ names, Q (.store (.patch view.key (.finalizers (Mark.withoutOwn names)))))
    (hpublish : ∀ note, Q (.publish view.reference note)) (hnow : Q .now)
    (hlock : Q (.lock view.key)) (hunlock : Q (.unlock view.key)) :
    Asks Q (cleanUp settings view).run := by
  unfold cleanUp
  split
  · refine Asks.locked hlock hunlock ?_
    refine Asks.tryBind
      (Asks.adapt (Cleanup.asks_pass settings view hrouter hannotate hget hpatch
      (hmemory _) hpublish hnow)) fun outcome => ?_
    cases outcome with
    | retry after attempts error => exact trivial
    | completed removed | forced attempts =>
        exact Asks.tryBind (Asks.lift (asks_forget _ (hmemory _) (hmemory _)))
          fun _ => trivial
  · exact Asks.tryBind (Asks.lift (asks_request (hmemory _))) fun _ => trivial

end Reconcile

end PortForwarding
