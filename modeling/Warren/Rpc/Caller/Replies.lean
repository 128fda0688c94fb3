import Warren.Base.Procs
import Warren.Rpc.Caller.Moves

namespace Rpc

open Function Option
open Procs

variable {Id Body Resp : Type} {n k slot : Nat} {cid : Id} {session : Session}

theorem CallPhase.cid_of_registeredId {p : CallPhase Id Resp}
    (h : p.registeredId = some cid) : p.cid = some cid := by
  cases p with
  | registered | awaiting | returning => exact h
  | _ => contradiction

theorem openSession_eq_ok {cfg : Config Body Resp} {broker : Broker}
    (h : openSession cfg broker = .ok session)
    : session.dispatch = .receiving ∧ session.ackReplies = cfg.useExclusiveQueue := by
  grind [openSession]

namespace State

def Matches (s : State Id Body Resp) (j n : Nat) : Prop :=
  ∃ p d, s.calls[j]? = some p ∧ s.deliveries[n]? = some d ∧ p.cid = some d.correlationId

structure Routed (cfg : Config Body Resp) (s : State Id Body Resp) : Prop where
  distinct : ∀ {i j : Nat} {p q cid}, s.calls[i]? = some p → s.calls[j]? = some q →
    p.cid = some cid → q.cid = some cid → i = j
  pending : ∀ {cid j}, s.pending cid = some j ↔
    ∃ p, s.calls[j]? = some p ∧ p.registeredId = some cid
  slot : ∀ {j n}, n ∈ (s.slots j).buf → s.Matches j n
  sending : ∀ {k n slot : Nat} {session}, s.sessions[k]? = some session →
    session.dispatch = .sending n slot → s.Matches slot n
  taken : ∀ {j n : Nat} {p}, s.calls[j]? = some p → p.taken = some n → s.Matches j n
  response : ∀ {j n : Nat} {p resp}, s.calls[j]? = some p → p.result = some (.response n resp) →
    ∃ d, s.deliveries[n]? = some d ∧ cfg.decode d.body = some resp

variable {cfg : Config Body Resp} {s s' t : State Id Body Resp}

theorem routed_init : (init : State Id Body Resp).Routed cfg where
  distinct := by
    intro i j p q cid h
    contradiction
  pending := by
    intro cid j
    simp [init]
  slot := by
    intro j n h
    contradiction
  sending := by
    intro k n slot session h
    contradiction
  taken := by
    intro j n p h
    contradiction
  response := by
    intro j n p resp h
    contradiction

structure Keeps (s s' : State Id Body Resp) : Prop where
  calls : ∀ {j : Nat} {p cid}, s.calls[j]? = some p → p.cid = some cid →
    ∃ p', s'.calls[j]? = some p' ∧ p'.cid = some cid
  deliveries : ∀ {n : Nat} {d}, s.deliveries[n]? = some d → s'.deliveries[n]? = some d

variable {j : Nat} {p q : CallPhase Id Resp}

theorem Matches.keeps (h : s.Matches j n) (hkeeps : s.Keeps s') : s'.Matches j n := by
  have ⟨p, d, hcall, hd, hcid⟩ := h
  have ⟨p', hcall', hcid'⟩ := hkeeps.calls hcall hcid
  exact ⟨p', d, hcall', hkeeps.deliveries hd, hcid'⟩

theorem keeps_goto (hcall : s.calls[j]? = some p) (hcalls : t.calls = s.calls)
    (hdeliveries : t.deliveries = s.deliveries) (hcid : ∀ {c}, p.cid = some c → q.cid = some c)
    : s.Keeps (t.goto j q) := by
  have hcalls' : (t.goto j q).calls = s.calls.set j q := by
    unfold goto
    rw [hcalls]
  refine ⟨?_, ?_⟩
  . intro i r cid hi hr
    rw [hcalls']
    by_cases heq : i = j
    . subst heq
      rw [hcall, some.injEq] at hi
      exact ⟨q, getElem?_set_of_eq_some hcall q, hcid (hi ▸ hr)⟩
    . exact ⟨r, (List.getElem?_set_ne (Ne.symm heq)).trans hi, hr⟩
  . intro n d hd
    exact (congrArg (·[n]?) hdeliveries).trans hd

theorem Routed.pending_iff (h : s.Routed cfg) (hcall : s.calls[j]? = some p)
    : s.pending cid = some j ↔ p.registeredId = some cid := by
  rw [h.pending]
  constructor
  . intro ⟨p', hcall', hreg⟩
    rw [hcall, some.injEq] at hcall'
    rwa [hcall']
  . exact fun hreg => ⟨p, hcall, hreg⟩

theorem Routed.goto (h : s.Routed cfg) (hcall : s.calls[j]? = some p) (hcalls : t.calls = s.calls)
    (hdeliveries : t.deliveries = s.deliveries) (hcid : ∀ {c}, p.cid = some c → q.cid = some c)
    (hfresh : ∀ {c}, q.cid = some c → p.cid = some c ∨ ∀ r ∈ s.calls, r.cid ≠ some c)
    (hpending : ∀ {c i}, t.pending c = some i ↔
      (i = j ∧ q.registeredId = some c) ∨ (i ≠ j ∧ s.pending c = some i))
    (hslots : ∀ {i n}, n ∈ (t.slots i).buf → n ∈ (s.slots i).buf)
    (hsessions : ∀ {k n slot : Nat} {session}, t.sessions[k]? = some session →
      session.dispatch = .sending n slot → s.sessions[k]? = some session)
    (htaken : ∀ {n}, q.taken = some n → s.Matches j n)
    (hresponse : ∀ {n resp}, q.result = some (.response n resp) →
      ∃ d, s.deliveries[n]? = some d ∧ cfg.decode d.body = some resp)
    : (t.goto j q).Routed cfg := by
  have hkeeps : s.Keeps (t.goto j q) := keeps_goto hcall hcalls hdeliveries hcid
  have hcalls' : (t.goto j q).calls = s.calls.set j q := by
    unfold State.goto
    rw [hcalls]
  have hself : ∀ {i : Nat} {r c}, i ≠ j → s.calls[i]? = some r → r.cid = some c →
      q.cid ≠ some c := by
    intro i r c hne hi hr hq
    cases hfresh hq with
    | inl hp => exact hne (h.distinct hi hcall hr hp)
    | inr hno => exact hno r (List.mem_of_getElem? hi) hr
  refine ⟨?_, ?_, ?_, ?_, ?_, ?_⟩
  . intro i i' r r' c hi hi' hr hr'
    rw [hcalls'] at hi hi'
    rcases getElem?_set_eq_some hi with ⟨heq, hri⟩ | ⟨hne, hold⟩
    . rcases getElem?_set_eq_some hi' with ⟨heq', _⟩ | ⟨hne', hold'⟩
      . exact heq.trans heq'.symm
      . exact absurd (hri ▸ hr) (hself hne' hold' hr')
    . rcases getElem?_set_eq_some hi' with ⟨_, hri'⟩ | ⟨_, hold'⟩
      . exact absurd (hri' ▸ hr') (hself hne hold hr)
      . exact h.distinct hold hold' hr hr'
  . intro c i
    show t.pending c = some i ↔ _
    rw [hpending, hcalls', h.pending]
    constructor
    . rintro (⟨heq, hreg⟩ | ⟨hne, r, hr, hreg⟩)
      . exact ⟨q, heq ▸ getElem?_set_of_eq_some hcall q, hreg⟩
      . exact ⟨r, (List.getElem?_set_ne (Ne.symm hne)).trans hr, hreg⟩
    . intro ⟨r, hr, hreg⟩
      rcases getElem?_set_eq_some hr with ⟨heq, hrq⟩ | ⟨hne, hold⟩
      . exact .inl ⟨heq, hrq ▸ hreg⟩
      . exact .inr ⟨hne, r, hold, hreg⟩
  . intro i n hn
    exact (h.slot (hslots hn)).keeps hkeeps
  . intro k n slot session hsession hdispatch
    exact (h.sending (hsessions hsession hdispatch) hdispatch).keeps hkeeps
  . intro i n r hi hn
    rw [hcalls'] at hi
    rcases getElem?_set_eq_some hi with ⟨heq, hrq⟩ | ⟨_, hold⟩
    . exact heq ▸ (htaken (hrq ▸ hn)).keeps hkeeps
    . exact (h.taken hold hn).keeps hkeeps
  . intro i n r resp hi hresult
    rw [hcalls'] at hi
    have hold : ∃ d, s.deliveries[n]? = some d ∧ cfg.decode d.body = some resp := by
      rcases getElem?_set_eq_some hi with ⟨_, hrq⟩ | ⟨_, hold⟩
      . exact hresponse (hrq ▸ hresult)
      . exact h.response hold hresult
    have ⟨d, hd, hdecode⟩ := hold
    exact ⟨d, hkeeps.deliveries hd, hdecode⟩

theorem Routed.frame (h : s.Routed cfg) (hcalls : t.calls = s.calls) (hpending : t.pending = s.pending)
    (hdeliveries : ∀ {n : Nat} {d}, s.deliveries[n]? = some d → t.deliveries[n]? = some d)
    (hslots : ∀ {j n}, n ∈ (t.slots j).buf → s.Matches j n)
    (hsending : ∀ {k n slot : Nat} {session}, t.sessions[k]? = some session →
      session.dispatch = .sending n slot → s.Matches slot n) : t.Routed cfg := by
  have hkeeps : s.Keeps t := by
    refine ⟨?_, hdeliveries⟩
    intro j p cid hj hcid
    exact ⟨p, by rwa [hcalls], hcid⟩
  refine ⟨?_, ?_, ?_, ?_, ?_, ?_⟩
  . rw [hcalls]
    exact h.distinct
  . rw [hcalls, hpending]
    exact h.pending
  . intro j n hn
    exact (hslots hn).keeps hkeeps
  . intro k n slot session hsession hdispatch
    exact (hsending hsession hdispatch).keeps hkeeps
  . intro j n p hj hn
    rw [hcalls] at hj
    exact (h.taken hj hn).keeps hkeeps
  . intro j n p resp hj hresult
    rw [hcalls] at hj
    have ⟨d, hd, hdecode⟩ := h.response hj hresult
    exact ⟨d, hdeliveries hd, hdecode⟩

theorem Routed.setSession (h : s.Routed cfg) (hcalls : t.calls = s.calls)
    (hpending : t.pending = s.pending)
    (hdeliveries : ∀ {n : Nat} {d}, s.deliveries[n]? = some d → t.deliveries[n]? = some d)
    (hslots : ∀ {j n}, n ∈ (t.slots j).buf → s.Matches j n)
    (hsessions : t.sessions = s.sessions.set k session)
    (hsending : ∀ {n slot}, session.dispatch = .sending n slot → s.Matches slot n) : t.Routed cfg := by
  refine h.frame hcalls hpending hdeliveries hslots ?_
  intro i n slot session' hi hdispatch
  rw [hsessions] at hi
  rcases getElem?_set_eq_some hi with ⟨_, heq⟩ | ⟨_, hold⟩
  . exact hsending (heq ▸ hdispatch)
  . exact h.sending hold hdispatch

theorem matches_of_load (h : s.Routed cfg) {m : Nat} (hload : s.load n = .sending m slot)
    : s.Matches slot m := by
  unfold load at hload
  split at hload
  . next slot' hslot =>
    have ⟨hm, hs⟩ := DispatchPhase.sending.inj hload
    have ⟨d, hd, hpending⟩ := bind_eq_some_iff.mp hslot
    have ⟨p, hp, hreg⟩ := h.pending.mp hpending
    exact ⟨p, d, hs ▸ hp, hm ▸ hd, CallPhase.cid_of_registeredId hreg⟩
  . contradiction

theorem routed_of_dispatchMove (h : s.Routed cfg) {a : DispatchAction}
    (hsession : s.sessions[k]? = some session) (hmove : s.DispatchMove k session a s')
    : s'.Routed cfg := by
  cases hmove with
  | load n => exact h.setSession rfl rfl id h.slot rfl (matches_of_load h)
  | send n slot hdispatch =>
    have hmatches : s.Matches slot n := h.sending hsession hdispatch
    unfold send
    split
    . next ch hsend =>
      have ⟨_, _, hbuf, _⟩ := Chan.trySend_eq_some_iff.mp hsend
      refine h.setSession rfl rfl id ?_ rfl (fun hno => by contradiction)
      intro j m hm
      by_cases heq : j = slot
      . subst heq
        simp [State.setSession, hbuf] at hm
        cases hm with
        | inl hold => exact h.slot hold
        | inr hnew => exact hnew ▸ hmatches
      . simp [State.setSession, update_of_ne heq] at hm
        exact h.slot hm
    . exact h.setSession rfl rfl id h.slot rfl (fun hno => by contradiction)
  | ack n =>
    unfold ack
    split
    all_goals exact h.setSession rfl rfl id h.slot rfl (fun hno => by contradiction)
  | exit => exact h.setSession rfl rfl id h.slot rfl (fun hno => by contradiction)

theorem taken_of_response {resp : Resp} (h : p.result = some (.response n resp))
    : p.taken = some n := by
  unfold CallPhase.taken
  rw [h]
  rfl

theorem decoded_eq_response {m : Nat} {resp : Resp} (h : s.decoded cfg n = .response m resp)
    : ∃ d, s.deliveries[m]? = some d ∧ cfg.decode d.body = some resp := by
  grind [decoded]

theorem delivery_decoded (cfg : Config Body Resp) (s : State Id Body Resp) (n : Nat)
    : (s.decoded cfg n).delivery = some n := by
  unfold decoded
  split
  . rfl
  . rfl

theorem Routed.pending_pass (h : s.Routed cfg) (hcall : s.calls[j]? = some p)
    (hreg : q.registeredId = p.registeredId) {c : Id} {i : Nat}
    : s.pending c = some i ↔ (i = j ∧ q.registeredId = some c) ∨ (i ≠ j ∧ s.pending c = some i) := by
  rw [hreg, ← h.pending_iff hcall]
  constructor
  . intro hpending
    by_cases heq : i = j
    . exact .inl ⟨heq, heq ▸ hpending⟩
    . exact .inr ⟨heq, hpending⟩
  . rintro (⟨heq, hpending⟩ | ⟨_, hpending⟩)
    . exact heq ▸ hpending
    . exact hpending

variable [DecidableEq Id]

theorem Routed.pending_register (h : s.Routed cfg)
    (hcall : s.calls[j]? = some (.identified k cid)) {c : Id} {i : Nat}
    : update s.pending cid (some j) c = some i ↔
        (i = j ∧ some cid = some c) ∨ (i ≠ j ∧ s.pending c = some i) := by
  by_cases heq : c = cid
  . subst heq
    rw [update_self, some.injEq]
    constructor
    . exact fun hij => .inl ⟨hij.symm, rfl⟩
    . rintro (⟨hij, _⟩ | ⟨hne, hpending⟩)
      . exact hij.symm
      . have ⟨r, hr, hreg⟩ := h.pending.mp hpending
        exact absurd (h.distinct hr hcall (CallPhase.cid_of_registeredId hreg) rfl) hne
  . rw [update_of_ne heq]
    constructor
    . intro hpending
      refine .inr ⟨?_, hpending⟩
      intro hij
      have hreg := (h.pending_iff hcall).mp (hij ▸ hpending)
      contradiction
    . rintro (⟨_, hc⟩ | ⟨_, hpending⟩)
      . exact absurd (some.inj hc).symm heq
      . exact hpending

theorem Routed.pending_unregister (h : s.Routed cfg) {r : Result Resp}
    (hcall : s.calls[j]? = some (.returning cid r)) {c : Id} {i : Nat}
    : update s.pending cid none c = some i ↔
        (i = j ∧ (none : Option Id) = some c) ∨ (i ≠ j ∧ s.pending c = some i) := by
  by_cases heq : c = cid
  . subst heq
    rw [update_self]
    constructor
    . intro hno
      contradiction
    . rintro (⟨_, hno⟩ | ⟨hne, hpending⟩)
      . contradiction
      . have ⟨p, hp, hreg⟩ := h.pending.mp hpending
        exact absurd (h.distinct hp hcall (CallPhase.cid_of_registeredId hreg) rfl) hne
  . rw [update_of_ne heq]
    constructor
    . intro hpending
      refine .inr ⟨?_, hpending⟩
      intro hij
      have hreg := (h.pending_iff hcall).mp (hij ▸ hpending)
      exact heq (some.inj hreg).symm
    . rintro (⟨_, hno⟩ | ⟨_, hpending⟩)
      . contradiction
      . exact hpending

theorem routed_of_callMove (h : s.Routed cfg) {a : CallAction Id} (hmove : s.CallMove cfg j a s')
    : s'.Routed cfg := by
  have hno : ∀ {q : CallPhase Id Resp}, q.taken = none → ∀ {n resp},
      q.result = some (.response n resp) → ∃ d, s.deliveries[n]? = some d ∧
        cfg.decode d.body = some resp := by
    intro q hnone n resp hresult
    rw [taken_of_response hresult] at hnone
    contradiction
  cases hmove with
  | pass a p q mu hcall hcid hreg htaken =>
    exact h.goto hcall rfl rfl (hcid ▸ id) (fun hq => .inl (hcid ▸ hq)) (h.pending_pass hcall hreg)
      id (fun hsession _ => hsession) (fun hn => by rw [htaken] at hn; contradiction) (hno htaken)
  | opened broker session hcall hopen =>
    refine h.goto hcall rfl rfl id .inl (h.pending_pass hcall rfl) id ?_
      (fun hn => by contradiction) (hno rfl)
    intro k n slot session' hsession hdispatch
    cases getElem?_concat_eq_some hsession with
    | inl hself =>
      rw [hself.2, (openSession_eq_ok hopen).1] at hdispatch
      contradiction
    | inr hold => exact hold
  | identify k cid hcall hfresh =>
    refine h.goto hcall rfl rfl (fun hp => by contradiction) ?_ (h.pending_pass hcall rfl) id
      (fun hsession _ => hsession) (fun hn => by contradiction) (hno rfl)
    intro c hc
    exact .inr (some.inj hc ▸ hfresh)
  | register k cid hcall =>
    refine h.goto hcall rfl rfl id .inl (h.pending_register hcall) ?_
      (fun hsession _ => hsession) (fun hn => by contradiction) (hno rfl)
    intro i n hn
    by_cases heq : i = j
    . subst heq
      simp at hn
    . simpa [update_of_ne heq] using hn
  | reply k n cid slot hcall hrecv =>
    have ⟨hbuf, _⟩ := Chan.recv_eq_some_some_iff.mp hrecv
    refine h.goto hcall rfl rfl id .inl (h.pending_pass hcall rfl) ?_
      (fun hsession _ => hsession) ?_ ?_
    . intro i m hm
      by_cases heq : i = j
      . subst heq
        rw [hbuf]
        simp at hm
        exact List.mem_cons_of_mem _ hm
      . simpa [update_of_ne heq] using hm
    . intro m hm
      have hm' : some n = some m := (delivery_decoded cfg s n).symm.trans hm
      rw [← some.inj hm']
      exact h.slot (by rw [hbuf]; exact List.mem_cons_self)
    . intro m resp hresult
      exact decoded_eq_response (some.inj hresult)
  | unregister cid r hcall =>
    refine h.goto hcall rfl rfl id .inl (h.pending_unregister hcall) id
      (fun hsession _ => hsession) ?_ ?_
    . intro n hn
      exact h.taken hcall hn
    . intro n resp hresult
      exact h.response hcall hresult

omit [DecidableEq Id] in
theorem Routed.begin (h : s.Routed cfg)
    : { s with calls := s.calls ++ [CallPhase.entered] }.Routed cfg := by
  have hkeeps : s.Keeps { s with calls := s.calls ++ [.entered] } :=
    ⟨fun hj hcid => ⟨_, getElem?_concat_of_eq_some hj _, hcid⟩, id⟩
  refine ⟨?_, ?_, ?_, ?_, ?_, ?_⟩
  . intro i j p q cid hi hj hp hq
    rcases getElem?_concat_eq_some hi with ⟨_, heq⟩ | hi
    . rw [heq] at hp
      contradiction
    . rcases getElem?_concat_eq_some hj with ⟨_, heq⟩ | hj
      . rw [heq] at hq
        contradiction
      . exact h.distinct hi hj hp hq
  . intro cid j
    rw [h.pending]
    constructor
    . intro ⟨p, hp, hreg⟩
      exact ⟨p, getElem?_concat_of_eq_some hp _, hreg⟩
    . intro ⟨p, hp, hreg⟩
      rcases getElem?_concat_eq_some hp with ⟨_, heq⟩ | hold
      . rw [heq] at hreg
        contradiction
      . exact ⟨p, hold, hreg⟩
  . intro j n hn
    exact (h.slot hn).keeps hkeeps
  . intro k n slot session hsession hdispatch
    exact (h.sending hsession hdispatch).keeps hkeeps
  . intro j n p hj hn
    rcases getElem?_concat_eq_some hj with ⟨_, heq⟩ | hold
    . rw [heq] at hn
      contradiction
    . exact (h.taken hold hn).keeps hkeeps
  . intro j n p resp hj hresult
    rcases getElem?_concat_eq_some hj with ⟨_, heq⟩ | hold
    . rw [heq] at hresult
      contradiction
    . exact h.response hold hresult

theorem routed_step (h : s.Routed cfg) {a : Action Id Body} (hstep : s.step cfg a = some s')
    : s'.Routed cfg := by
  cases step_move hstep with
  | begin => exact h.begin
  | call j a _ hmove => exact routed_of_callMove h hmove
  | closeAgain => exact h
  | close => exact h.frame rfl rfl id h.slot h.sending
  | deliver k d session hsession =>
    exact h.setSession rfl rfl (fun hd => getElem?_concat_of_eq_some hd d) h.slot rfl
      (fun hno => by contradiction)
  | dispatch k session a _ hsession hmove => exact routed_of_dispatchMove h hsession hmove
  | noSession => exact h
  | _ _ _ hsession =>
    exact h.setSession rfl rfl id h.slot rfl (fun hd => h.sending hsession hd)

end State
end Rpc
