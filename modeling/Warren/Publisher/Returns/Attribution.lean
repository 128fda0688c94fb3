import Warren.Publisher.Returns.Verdicts

/-!
Which messages are reported as unroutable, and which as published.
-/

namespace Publisher

open Option

theorem Publishing.returned_of_verdict {pub : Publishing} {replyCode : UInt16}
    (h : pub.verdict = some (some (.unroutable replyCode))) : pub.returned = some replyCode := by
  have ⟨ack, _, h⟩ := map_eq_some_iff.mp h
  cases ack with
  | true => simpa using h
  | false => simp at h

theorem Publishing.acked_of_verdict {pub : Publishing} (h : pub.verdict = some none)
    : pub.confirmed = some true ∧ pub.returned = none := by
  have ⟨ack, hconfirmed, h⟩ := map_eq_some_iff.mp h
  cases ack with
  | true => exact ⟨hconfirmed, by simpa using h⟩
  | false => simp at h

theorem State.Reported.own {s : State} {a : Attempt} {err : Option Err} (h : s.Reported a err)
    (herr : err = none ∨ ∃ replyCode, err = some (.unroutable replyCode))
    : ∃ pub v, s.broker a.deliveryTag = some pub ∧ pub.attempt = a ∧ pub.verdict = some v ∧
        err = v.map mapConfirmError := by
  rcases h with ⟨pub, hpub, hattempt, hresolved⟩ | ⟨_, hfailed⟩
  . rcases hresolved with heq | heq | ⟨v, hv, heq⟩
    . simp [heq] at herr
    . simp [heq] at herr
    . refine ⟨pub, v, hpub, hattempt, ?_, heq⟩
      simp only [State.verdict, hpub, bind_some] at hv
      obtain hv | ⟨_, hv⟩ := or_eq_some_iff.mp hv
      . exact hv
      . split at hv
        . cases hv
          simp [heq, mapConfirmError] at herr
        . contradiction
  . rcases hfailed with heq | heq <;> simp [heq] at herr

theorem attributed_of_freshID {mandatory : Bool} {confirmTimeout publishBatchMaxSize : Int}
    {as : List Action} {s : State}
    (hfresh : Run.Along State.step State.FreshID
      (.init mandatory confirmTimeout publishBatchMaxSize) as)
    (hrun : Run.run State.step (.init mandatory confirmTimeout publishBatchMaxSize) as = some s)
    {a : Attempt} {err : Option Err} (hresult : (a, err) ∈ s.results)
    : (err = none →
        ∃ pub, s.broker a.deliveryTag = some pub ∧ pub.attempt = a ∧ pub.confirmed = some true ∧
          pub.returned = none) ∧
      (∀ replyCode, err = some (.unroutable replyCode) →
        ∃ pub, s.broker a.deliveryTag = some pub ∧ pub.attempt = a ∧
          pub.returned = some replyCode) := by
  have hexact : ∃ σ, s.Exact σ := by
    apply Run.inv_of_run (I := fun s => ∃ σ, s.Exact σ) _ _ hfresh hrun
    . intro s a s' h hP hstep
      exact State.exact_step h hP hstep
    . exact ⟨_, State.Exact.init _ _ _⟩
  have ⟨σ, h⟩ := hexact
  have hreported := h.told.results a err hresult
  constructor
  . intro herr
    have ⟨pub, v, hpub, hattempt, hv, heq⟩ := hreported.own (.inl herr)
    rw [herr, eq_comm, map_eq_none_iff] at heq
    exact ⟨pub, hpub, hattempt, Publishing.acked_of_verdict (heq ▸ hv)⟩
  . intro replyCode herr
    have ⟨pub, v, hpub, hattempt, hv, heq⟩ := hreported.own (.inr ⟨replyCode, herr⟩)
    rw [herr, eq_comm, map_eq_some_iff] at heq
    have ⟨e, he, hmap⟩ := heq
    have hunroutable : e = .unroutable replyCode := by
      cases e <;> simp_all [mapConfirmError]
    exact ⟨pub, hpub, hattempt, Publishing.returned_of_verdict (hunroutable ▸ he ▸ hv)⟩

def mixedBatchRun : List Action :=
  [.publishBatch [⟨"order-7", ⟨"uuid", by decide⟩, true⟩, ⟨"", ⟨"uuid", by decide⟩, true⟩],
    .call .store, .call .register, .call (.publish true),
    .call .store, .call .register, .call (.publish true),
    .demux (.ret 1 312), .demux .markReturned, .demux (.confirm 1 true), .demux (.confirm 2 true),
    .call (.wait .begin), .call (.wait .done), .call (.wait .delete),
    .call (.wait .begin), .call (.wait .done), .call (.wait .delete),
    .call .delete, .call .delete, .call .release,
    .publishOnce ⟨"order-7", by decide⟩, .call .store]

theorem attributed_of_freshID_mixedBatchRun
    : ∃ s, Run.run State.step (.init true 30 0) mixedBatchRun = some s ∧
        s.results = [(⟨0, ⟨"order-7", by decide⟩, 1⟩, some (.unroutable 312)),
          (⟨1, ⟨"uuid", by decide⟩, 2⟩, none)] ∧
        (∃ pub, s.broker 1 = some pub ∧ pub.attempt = ⟨0, ⟨"order-7", by decide⟩, 1⟩ ∧
          pub.returned = some 312) ∧
        ∃ pub, s.broker 2 = some pub ∧ pub.attempt = ⟨1, ⟨"uuid", by decide⟩, 2⟩ ∧
          pub.confirmed = some true ∧ pub.returned = none := by
  have hfresh : Run.Along State.step State.FreshID (.init true 30 0) mixedBatchRun := by decide
  have hresults : (Run.run State.step (.init true 30 0) mixedBatchRun).map (·.results) =
      some [(⟨0, ⟨"order-7", by decide⟩, 1⟩, some (.unroutable 312)),
        (⟨1, ⟨"uuid", by decide⟩, 2⟩, none)] := by decide
  have ⟨s, hrun, hs⟩ := map_eq_some_iff.mp hresults
  refine ⟨s, hrun, hs, ?_, ?_⟩
  . exact (attributed_of_freshID hfresh hrun (by rw [hs]; exact List.mem_cons_self)).2 312 rfl
  . exact (attributed_of_freshID hfresh hrun
      (by rw [hs]; exact List.mem_cons_of_mem _ List.mem_cons_self)).1 rfl

def retryBegin : List Action :=
  [.publishOnce ⟨"order-7", by decide⟩, .call .store, .call .register, .call (.publish true),
    .call (.wait .begin), .call (.wait .timer), .call (.wait .delete), .call .delete, .call .release,
    .publishOnce ⟨"order-7", by decide⟩, .call .store]

-- the return of the first attempt comes when the second one is registered
def lateReturnRun : List Action :=
  retryBegin ++
  [.call .register, .call (.publish true), .demux (.ret 1 312), .demux .markReturned,
    .demux (.confirm 1 true), .demux (.confirm 2 true),
    .call (.wait .begin), .call (.wait .done), .call (.wait .delete)]

-- it comes before the second one is registered, and the second one is returned too
def lostReturnRun : List Action :=
  retryBegin ++
  [.demux (.ret 1 312), .demux .markReturned, .call .register, .call (.publish true),
    .demux (.ret 2 312), .demux (.confirm 1 true), .demux (.confirm 2 true),
    .call (.wait .begin), .call (.wait .done), .call (.wait .delete)]

theorem retry_misattributed
    : (∃ s, Run.run State.step (.init true 30 0) lateReturnRun = some s ∧
        (⟨1, ⟨"order-7", by decide⟩, 2⟩, some (.unroutable 312)) ∈ s.results ∧
        s.broker 2 = some ⟨⟨1, ⟨"order-7", by decide⟩, 2⟩, none, some true⟩) ∧
      ∃ s, Run.run State.step (.init true 30 0) lostReturnRun = some s ∧
        (⟨1, ⟨"order-7", by decide⟩, 2⟩, none) ∈ s.results ∧
        s.broker 2 = some ⟨⟨1, ⟨"order-7", by decide⟩, 2⟩, some 312, some true⟩ := by
  have hlate : (Run.run State.step (.init true 30 0) lateReturnRun).map
      (fun s => (s.results.getLast?, s.broker 2)) =
      some (some (⟨1, ⟨"order-7", by decide⟩, 2⟩, some (.unroutable 312)),
        some ⟨⟨1, ⟨"order-7", by decide⟩, 2⟩, none, some true⟩) := by decide
  have hlost : (Run.run State.step (.init true 30 0) lostReturnRun).map
      (fun s => (s.results.getLast?, s.broker 2)) =
      some (some (⟨1, ⟨"order-7", by decide⟩, 2⟩, none),
        some ⟨⟨1, ⟨"order-7", by decide⟩, 2⟩, some 312, some true⟩) := by decide
  have ⟨s, hrun, hs⟩ := map_eq_some_iff.mp hlate
  have ⟨t, hrun', ht⟩ := map_eq_some_iff.mp hlost
  rw [Prod.mk.injEq] at hs ht
  exact ⟨⟨s, hrun, List.mem_of_getLast? hs.1, hs.2⟩, t, hrun', List.mem_of_getLast? ht.1, ht.2⟩

end Publisher
