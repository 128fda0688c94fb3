import Warren.Publisher.Returns.Lemmas
import Warren.Publisher.Returns.Waits

/-!
What holds on a publisher channel in every state: the tracker knows of the returns and the confirms
what the broker has sent, and each result is the verdict on its own attempt.
-/

namespace Publisher

open Function List Option
open Confirms

def Publishing.verdict (pub : Publishing) : Option (Option Confirms.Err) :=
  pub.confirmed.map (fun ack => if ack then pub.returned.map .unroutable else some .nacked)

def Demux.marks (d : Demux) (tag : Nat) : Bool :=
  match d with
  | .marking t _ => t == tag
  | _ => false

namespace State

def verdict (s : State) (tag : Nat) : Option (Option Confirms.Err) :=
  ((s.broker tag).bind (·.verdict)).or (if s.demux = .exited then some (some .closed) else none)

-- the return that the tracker has been told of
def marked (s : State) (tag : Nat) : Option UInt16 :=
  if s.demux.marks tag then none else (s.broker tag).bind (·.returned)

def Resolved (s : State) (tag : Nat) (err : Option Err) : Prop :=
  err = some .confirmTimeout ∨ err = some .ctx ∨
    ∃ v, s.verdict tag = some v ∧ err = v.map mapConfirmError

-- the attempt has been sent and the result is its own, or it could not be sent
def Reported (s : State) (a : Attempt) (err : Option Err) : Prop :=
  (∃ pub, s.broker a.deliveryTag = some pub ∧ pub.attempt = a ∧ s.Resolved a.deliveryTag err) ∨
    (∀ pub, s.broker a.deliveryTag = some pub → pub.attempt ≠ a) ∧
      (err = some .amqp ∨ err = some .channelClosed)

def WaitsFor (s : State) (tag : Nat) : Prop :=
  ∃ k a published, s.call = some k ∧ k.phase = .wait ∧ k.published = a :: published ∧
    a.deliveryTag = tag

structure Numbered (s : State) : Prop where
  nodup : s.published.Nodup
  published : ∀ a ∈ s.published, a.number < s.attempts
  attempt : ∀ a, s.attempt = some a → a.number < s.attempts
  results : ∀ a err, (a, err) ∈ s.results → a.number < s.attempts ∧ s.stored ≠ some a
  tagged : ∀ tag pub, s.broker tag = some pub → pub.attempt.deliveryTag = tag
  accounted : ∀ tag pub, s.broker tag = some pub →
    pub.attempt ∈ s.published ∨ ∃ err, (pub.attempt, err) ∈ s.results

structure Told (s : State) (σ : Spec) : Prop where
  models : s.confirms.Models σ
  live : ∀ tag, (σ.entries tag).isSome = true ↔ s.Live tag
  waiting : ∀ tag, σ.waiting tag = true → s.WaitsFor tag
  kept : ∀ tag, σ.kept tag = none
  closed : s.demux = .exited → s.confirms.tracker.closed = true
  entry : ∀ tag e, σ.entries tag = some e → e.verdict = s.verdict tag ∧ e.returned = s.marked tag
  marking : ∀ tag replyCode, s.demux = .marking tag replyCode →
    ∃ pub, s.broker tag = some pub ∧ pub.returned = some replyCode
  results : ∀ a err, (a, err) ∈ s.results → s.Reported a err

structure Exact (s : State) (σ : Spec) : Prop where
  orderly : s.Orderly
  joined : s.mandatory = true → s.Joined
  numbered : s.Numbered
  told : s.Told σ

theorem Exact.init (mandatory : Bool) (confirmTimeout publishBatchMaxSize : Int)
    : (init mandatory confirmTimeout publishBatchMaxSize).Exact .init := by
  refine ⟨Orderly.init _ _ _, fun _ => Joined.init _ _ _, ?_, ?_⟩
  . constructor
    all_goals simp [State.init, State.published, State.attempt]
  . refine ⟨State.Models.init, ?_, ?_, ?_, ?_, ?_, ?_, ?_⟩
    all_goals simp [State.init, Spec.init, State.Live, State.published, State.registered]

variable {s s' : State} {σ σ' : Spec} {k : Call} {a : Attempt} {tag : Nat} {err : Option Err}

theorem Resolved.mono (h : s.Resolved tag err)
    (hverdict : ∀ v, s.verdict tag = some v → s'.verdict tag = some v) : s'.Resolved tag err := by
  rcases h with herr | herr | ⟨v, hv, herr⟩
  . exact .inl herr
  . exact .inr (.inl herr)
  . exact .inr (.inr ⟨v, hverdict v hv, herr⟩)

theorem Reported.resolved (h : s.Reported a err) {pub : Publishing}
    (hpub : s.broker a.deliveryTag = some pub) (hattempt : pub.attempt = a)
    : s.Resolved a.deliveryTag err := by
  rcases h with ⟨_, _, _, hresolved⟩ | ⟨hnever, _⟩
  . exact hresolved
  . exact absurd hattempt (hnever pub hpub)

theorem Reported.mono (h : s.Reported a err)
    (hbroker : (s'.broker a.deliveryTag).map (·.attempt) =
      (s.broker a.deliveryTag).map (·.attempt))
    (hverdict : ∀ v, s.verdict a.deliveryTag = some v → s'.verdict a.deliveryTag = some v)
    : s'.Reported a err := by
  rcases h with ⟨pub, hpub, hattempt, hresolved⟩ | ⟨hnever, herr⟩
  . rw [hpub, map_some, map_eq_some_iff] at hbroker
    obtain ⟨pub', hpub', heq⟩ := hbroker
    exact .inl ⟨pub', hpub', heq.trans hattempt, hresolved.mono hverdict⟩
  . refine .inr ⟨?_, herr⟩
    intro pub' hpub'
    rw [hpub', map_some, eq_comm, map_eq_some_iff] at hbroker
    obtain ⟨pub, hpub, heq⟩ := hbroker
    exact heq ▸ hnever pub hpub

theorem Numbered.frame (h : s.Numbered) (hattempts : s'.attempts = s.attempts)
    (hbroker : ∀ tag, (s'.broker tag).map (·.attempt) = (s.broker tag).map (·.attempt))
    (hpublished : s'.published.Sublist s.published)
    (hattempt : ∀ a, s'.attempt = some a → s.attempt = some a)
    (hstored : ∀ a, s'.stored = some a → s.stored = some a)
    (hresults : ∀ a err, (a, err) ∈ s'.results →
      (a, err) ∈ s.results ∨ s'.stored = none ∧ (s.attempt = some a ∨ a ∈ s.published))
    (hold : ∀ r ∈ s.results, r ∈ s'.results)
    (hended : ∀ a ∈ s.published, a ∈ s'.published ∨ ∃ err, (a, err) ∈ s'.results)
    : s'.Numbered := by
  have hpub {tag : Nat} {pub : Publishing} (hpub : s'.broker tag = some pub)
      : ∃ p, s.broker tag = some p ∧ p.attempt = pub.attempt := by
    have hmap := hbroker tag
    rw [hpub, map_some, eq_comm, map_eq_some_iff] at hmap
    exact hmap
  constructor
  . exact h.nodup.sublist hpublished
  . intro a ha
    rw [hattempts]
    exact h.published a (hpublished.subset ha)
  . intro a ha
    rw [hattempts]
    exact h.attempt a (hattempt a ha)
  . intro a err hmem
    rw [hattempts]
    rcases hresults a err hmem with hmem | ⟨hnone, ha | ha⟩
    . exact ⟨(h.results a err hmem).1, fun hs => (h.results a err hmem).2 (hstored a hs)⟩
    . exact ⟨h.attempt a ha, by simp [hnone]⟩
    . exact ⟨h.published a ha, by simp [hnone]⟩
  . intro tag pub hp
    have ⟨p, hp, hattempt⟩ := hpub hp
    rw [← hattempt]
    exact h.tagged tag p hp
  . intro tag pub hp
    have ⟨p, hp, hattempt⟩ := hpub hp
    rw [← hattempt]
    cases h.accounted tag p hp with
    | inl hmem => exact hended _ hmem
    | inr hresult =>
      have ⟨err, hmem⟩ := hresult
      exact .inr ⟨err, hold _ hmem⟩

theorem Exact.frame (h : s.Exact σ) (hseqNo : s'.nextPublishSeqNo = s.nextPublishSeqNo)
    (hattempts : s'.attempts = s.attempts)
    (hbroker : ∀ tag, (s'.broker tag).map (·.attempt) = (s.broker tag).map (·.attempt))
    (hpublished : s'.published.Sublist s.published)
    (hattempt : ∀ a, s'.attempt = some a → s.attempt = some a)
    (hstored : ∀ a, s'.stored = some a → s.stored = some a)
    (hdrained : ∀ k messageIDs, s'.call = some k → k.phase = .delete messageIDs → k.published = [])
    (hresults : ∀ a err, (a, err) ∈ s'.results →
      (a, err) ∈ s.results ∨ s'.stored = none ∧ (s.attempt = some a ∨ a ∈ s.published))
    (hold : ∀ r ∈ s.results, r ∈ s'.results)
    (hended : ∀ a ∈ s.published, a ∈ s'.published ∨ ∃ err, (a, err) ∈ s'.results)
    (hjoined : s'.mandatory = true → s'.Joined) (htold : s'.Told σ') : s'.Exact σ' :=
  ⟨h.orderly.frame hseqNo hbroker hattempt (fun _ ha => hpublished.subset ha) hdrained, hjoined,
    h.numbered.frame hattempts hbroker hpublished hattempt hstored hresults hold hended, htold⟩

theorem Told.waiting_eq_false (h : s.Told σ) (hcall : s.call = some k) (hphase : k.phase ≠ .wait)
    (tag : Nat) : σ.waiting tag = false := by
  rw [Bool.eq_false_iff]
  intro hwaiting
  have ⟨k', _, _, hcall', hphase', _⟩ := h.waiting tag hwaiting
  rw [hcall, some.injEq] at hcall'
  rw [hcall'] at hphase
  contradiction

theorem Told.move (h : s.Told σ) (hmodels : s'.confirms.Models σ')
    (hclosed : s'.confirms.tracker.closed = s.confirms.tracker.closed)
    (hbroker : s'.broker = s.broker) (hdemux : s'.demux = s.demux)
    (hlive : ∀ tag, (σ'.entries tag).isSome = true ↔ s'.Live tag)
    (hwaiting : ∀ tag, σ'.waiting tag = true → s'.WaitsFor tag) (hkept : ∀ tag, σ'.kept tag = none)
    (hentries : ∀ tag e, σ'.entries tag = some e → σ.entries tag = some e)
    (hresults : ∀ a err, (a, err) ∈ s'.results → (a, err) ∈ s.results ∨ s.Reported a err)
    : s'.Told σ' := by
  have hverdict (tag : Nat) : s'.verdict tag = s.verdict tag := by
    simp only [verdict, hbroker, hdemux]
  refine ⟨hmodels, hlive, hwaiting, hkept, ?_, ?_, ?_, ?_⟩
  . rw [hdemux, hclosed]
    exact h.closed
  . intro tag e he
    rw [hverdict]
    simpa only [marked, hbroker, hdemux] using h.entry tag e (hentries tag e he)
  . rw [hdemux, hbroker]
    exact h.marking
  . intro a err hmem
    have hreported : s.Reported a err := (hresults a err hmem).elim (h.results a err) id
    refine hreported.mono (by rw [hbroker]) (fun v hv => ?_)
    rw [hverdict]
    exact hv

theorem Exact.setCall (h : s.Exact σ) (hs' : s' = { s with call := s'.call })
    (hwaiting : ∀ tag, σ.waiting tag = false) (hpublished : s'.published = s.published)
    (hregistered : s'.registered = s.registered)
    (hattempt : ∀ a, s'.attempt = some a → s.attempt = some a)
    (hstored : ∀ a, s'.stored = some a → s.stored = some a)
    (hdrained : ∀ k messageIDs, s'.call = some k → k.phase = .delete messageIDs → k.published = [])
    : s'.Exact σ := by
  have hbroker : s'.broker = s.broker := by rw [hs']
  have hresults : s'.results = s.results := by rw [hs']
  have hlive (tag : Nat) : s'.Live tag ↔ s.Live tag := by
    unfold Live
    rw [hpublished, hregistered]
  apply h.frame (by rw [hs']) (by rw [hs']) (fun _ => by rw [hbroker])
    (hpublished ▸ List.Sublist.refl _) hattempt hstored hdrained
  . rw [hresults]
    exact fun _ _ => .inl
  . rw [hresults]
    exact fun _ => id
  . rw [hpublished]
    exact fun _ => .inl
  . intro hmandatory
    have hj := h.joined (by rw [← hmandatory, hs'])
    exact hj.frame (by rw [hs']) (fun _ _ hpub _ => hbroker ▸ hpub) (fun tag => (hlive tag).mp)
      hstored hattempt
  . have hconfirms : s'.confirms = s.confirms := by rw [hs']
    refine h.told.move (hconfirms ▸ h.told.models) (by rw [hconfirms]) hbroker (by rw [hs'])
      (fun tag => (h.told.live tag).trans (hlive tag).symm) ?_ h.told.kept (fun _ _ => id) ?_
    . intro tag hw
      rw [hwaiting tag] at hw
      contradiction
    . rw [hresults]
      exact fun _ _ => .inl

theorem live_congr (hcall : s'.call = s.call) (tag : Nat) : s'.Live tag ↔ s.Live tag := by
  unfold Live State.published State.registered
  rw [hcall]

theorem waitsFor_congr (hcall : s'.call = s.call) (tag : Nat)
    : s'.WaitsFor tag ↔ s.WaitsFor tag := by
  unfold WaitsFor
  rw [hcall]

theorem Exact.still (h : s.Exact σ) (hcall : s'.call = s.call) (hresults : s'.results = s.results)
    (hseqNo : s'.nextPublishSeqNo = s.nextPublishSeqNo) (hattempts : s'.attempts = s.attempts)
    (hbroker : ∀ tag, (s'.broker tag).map (·.attempt) = (s.broker tag).map (·.attempt))
    (hjoined : s'.mandatory = true → s'.Joined) (htold : s'.Told σ') : s'.Exact σ' := by
  have hpublished : s'.published = s.published := by
    unfold State.published
    rw [hcall]
  apply h.frame hseqNo hattempts hbroker (hpublished ▸ List.Sublist.refl _)
  . unfold State.attempt
    rw [hcall]
    exact fun _ => id
  . unfold State.stored
    rw [hcall]
    exact fun _ => id
  . rw [hcall]
    exact h.orderly.drained
  . rw [hresults]
    exact fun _ _ => .inl
  . rw [hresults]
    exact fun _ => id
  . rw [hpublished]
    exact fun _ => .inl
  . exact hjoined
  . exact htold

theorem Exact.answer (h : s.Exact σ) (covered : Nat → Bool) (f : Entry → Entry)
    (hcall : s'.call = s.call) (hresults : s'.results = s.results)
    (hseqNo : s'.nextPublishSeqNo = s.nextPublishSeqNo) (hattempts : s'.attempts = s.attempts)
    (hbroker : ∀ tag, (s'.broker tag).map (·.attempt) = (s.broker tag).map (·.attempt))
    (hjoined : s'.mandatory = true → s'.Joined) (hmodels : s'.confirms.Models σ')
    (hentries : σ'.entries = (σ.mapEntries covered f).entries) (hkept : σ'.kept = σ.kept)
    (hwaiting : σ'.waiting = σ.waiting)
    (hclosed : s'.demux = .exited → s'.confirms.tracker.closed = true)
    (hverdict : ∀ tag v, s.verdict tag = some v → s'.verdict tag = some v)
    (hentry : ∀ tag e, σ.entries tag = some e →
      (if covered tag then f e else e).verdict = s'.verdict tag ∧
        (if covered tag then f e else e).returned = s'.marked tag)
    (hmarking : ∀ tag replyCode, s'.demux = .marking tag replyCode →
      ∃ pub, s'.broker tag = some pub ∧ pub.returned = some replyCode)
    : s'.Exact σ' := by
  have hmap (tag : Nat)
      : σ'.entries tag = (σ.entries tag).map (fun e => if covered tag then f e else e) := by
    rw [hentries]
    unfold Spec.mapEntries
    dsimp only
    split <;> simp
  refine h.still hcall hresults hseqNo hattempts hbroker hjoined ⟨hmodels, ?_, ?_, ?_, hclosed, ?_,
    hmarking, ?_⟩
  . intro tag
    rw [hmap, isSome_map, live_congr hcall]
    exact h.told.live tag
  . intro tag hw
    rw [waitsFor_congr hcall]
    exact h.told.waiting tag (hwaiting ▸ hw)
  . rw [hkept]
    exact h.told.kept
  . intro tag e' he'
    rw [hmap] at he'
    have ⟨e, he, heq⟩ := map_eq_some_iff.mp he'
    exact heq ▸ hentry tag e he
  . intro a err hmem
    exact (h.told.results a err (hresults ▸ hmem)).mono (hbroker _) (hverdict _)

end State
end Publisher
