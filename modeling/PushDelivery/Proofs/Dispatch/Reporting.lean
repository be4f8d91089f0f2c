import Mathlib.Data.List.Forall2
import PushDelivery.Proofs.Dispatch.Closing

/-!
# From raw results to the consumer

Behind the transport everything is in order. As long as nobody cancels, the raw results are those
that were reconciled, the one that the reconciler holds and those on the raw channel; what was
reconciled comes to the consumer through the report channel, each raw result answered by one report.
`Reporting` says so for any transport whatever.

How a report answers its raw result is left open, as a relation: what a store replies may depend on
all that it was asked before, also by other dispatches.
-/

namespace PushDelivery.Dispatch

def Reconciler.held : Reconciler → List DeliveryResult
  | .holding r => [r]
  | _ => []

def Reconciler.pending : Reconciler → List DeliveryResult
  | .reporting r => [r]
  | _ => []

theorem Reconciler.eq_nil_of_hasLeft {r : Reconciler} (h : r.hasLeft = true) :
    r.held = [] ∧ r.pending = [] := by
  cases r with
  | measuring | finished => exact ⟨rfl, rfl⟩
  | _ => cases h

/-- Where the results are, if each is answered as `R` says. -/
structure Reporting (R : DeliveryResult → DeliveryResult → Prop) (s : State) : Prop where
  receiving : s.report.receiving = true
  raw : s.history.reconciled ++ s.reconciler.held ++ s.raw.queue = s.history.emitted
  answers : List.Forall₂ R s.history.reconciled (s.history.reported ++ s.reconciler.pending)
  report : s.history.taken ++ s.report.queue = s.history.reported

namespace Reporting

variable {σ : Type} [SubscriptionStore σ] {R : DeliveryResult → DeliveryResult → Prop} {j : Job}
  {label : Label} {s s' : State} {l l' : Ledger σ}

theorem emit (h : Reporting R s) (r : DeliveryResult) : Reporting R (emit s r) :=
  { h with raw := by simp [Dispatch.emit, Channel.push, ← h.raw] }

theorem finishReconciling (h : Reporting R s) (hr : s.reconciler = .receiving)
    (hq : s.raw.queue = []) : Reporting R (finishReconciling s) :=
  { h with
    raw := by
      have := h.raw
      rw [hr, hq] at this
      exact this
    answers := by
      have := h.answers
      rw [hr] at this
      exact this }

/-- The one move that makes an answer is the reconciler's; `hR` says how it answers. -/
theorem move (h : Reporting R s) (hm : Move j label s l s' l')
    (hR : ∀ r, R r (l.reconcile r).1) (hc : s'.cancelled = false) : Reporting R s' := by
  have hc' := hm.cancelled_eq_false hc
  cases hm with
  | exhaust | take | withdraw | offer | acquire | interrupt | accept | leave | wind | conclude
  | heed | fetch | miss | crash | call | lose | finish | start | answer | discard | abort =>
    exact { h with }
  | @send _ _ _ _ r => exact { h.emit r with }
  | @emit _ _ _ _ _ _ r => exact { h.emit r with }
  | stop _ hi => simp [hc'] at hi
  | collect hr _ hq =>
    exact { h with
      raw := by simpa [hr, hq, Reconciler.held, Channel.pop] using h.raw
      answers := by simpa [hr, Reconciler.pending] using h.answers }
  | drain hr _ hq => exact h.finishReconciling hr hq
  | reconcile hr =>
    have hraw := h.raw
    have hanswers := h.answers
    rw [hr] at hraw hanswers
    refine { h with raw := ?_, answers := ?_ }
    · simpa [Reconciler.held] using hraw
    · refine List.rel_append ?_ (.cons (hR _) .nil)
      simpa [Reconciler.pending] using hanswers
  | forsake hr hw => simp [hc', h.receiving] at hw
  | report hr _ _ hq =>
    exact { h with
      raw := by simpa [hr, Reconciler.held] using h.raw
      answers := by simpa [hr, Reconciler.pending] using h.answers
      report := by simp [Channel.push, ← h.report] }
  | measure hr =>
    exact { h with
      raw := by simpa [hr, Reconciler.held] using h.raw
      answers := by simpa [hr, Reconciler.pending] using h.answers }
  | consume hq => exact { h with report := by simpa [hq, Channel.pop] using h.report }
  | cancel | drop => cases hc

/-- When the stream has ended, all that was emitted has been reconciled, and all of that has come
out. -/
theorem of_ended (h : Reporting R s) (hw : Wired j s) (hc : s.cancelled = false)
    (he : s.ended = true) : s.history.reconciled = s.history.emitted ∧
      s.history.reported ++ s.reconciler.pending = s.history.taken := by
  obtain ⟨hq, hleft⟩ := hasLeft_of_ended he
  have hnone := Reconciler.eq_nil_of_hasLeft hleft
  have hraw := h.raw
  have hreport := h.report
  rw [hnone.1, (hw.drained hc hleft).2, List.append_nil, List.append_nil] at hraw
  rw [hq, List.append_nil] at hreport
  rw [hnone.2, List.append_nil]
  exact ⟨hraw, hreport.symm⟩

theorem start (R : DeliveryResult → DeliveryResult → Prop) (j : Job) : Reporting R j.start := by
  constructor <;> simp [Job.start, Reconciler.held, Reconciler.pending]

end Reporting

end PushDelivery.Dispatch
