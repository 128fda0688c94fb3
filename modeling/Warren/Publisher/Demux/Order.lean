import Warren.Publisher.Demux.Refinement

/-!
In which order the goroutine of `startConfirmDemux` takes up the frames of a message.
-/

namespace Publisher

open Function List Option
namespace Wired

variable {buf : Nat} {s s' : Wired buf}

variable {a : Action} {tag : Nat} {p : Publishing}

theorem along_channelActions (ha : s.Orderly a)
    : Run.Along State.step State.FreshID s.seen (s.channelActions a) := by
  cases a with
  | publishOnce | publishBatch | shutdown | recvConfirmClosed | markReturned =>
    exact Run.along_singleton trivial
  | call b =>
    apply Run.along_singleton
    cases b with
    | store => exact ha
    | _ => trivial
  | lookUp =>
    unfold channelActions
    cases s.hand with
    | none => trivial
    | some f =>
      cases f with
      | ret => exact Run.along_singleton trivial
      | confirm => trivial
  | resolve =>
    unfold channelActions
    cases s.hand with
    | none => trivial
    | some f =>
      cases f with
      | ret => trivial
      | confirm => exact Run.along_singleton trivial
  | _ => trivial

theorem exact_step (h : s.Wf) (hexact : ∃ σ, s.seen.Exact σ) (ha : s.Orderly a)
    (hstep : s.step a = some s') : ∃ σ, s'.seen.Exact σ :=
  Run.inv_of_run (I := fun t => ∃ σ, t.Exact σ) (fun _ _ _ => State.exact_step) hexact
    (along_channelActions ha) (seen_step h hstep)

def Early (s : Wired buf) (a : Attempt) : Prop :=
  (a, some .confirmTimeout) ∈ s.pub.results ∨ (a, some .ctx) ∈ s.pub.results

def returnEvents (s : Wired buf) (tag : Nat) (replyCode : UInt16) : List Event :=
  if s.onReturn then
    [.onReturn tag replyCode, .markReturned tag replyCode]
  else
    [.markReturned tag replyCode]

structure Logged (s : Wired buf) : Prop where
  confirmed : ∀ tag ack, .confirm tag ack ∈ s.log ↔
    ∃ p, s.seen.broker tag = some p ∧ p.confirmed = some ack
  called : ∀ tag replyCode, s.pub.demux = .marking tag replyCode → s.called = true →
    s.onReturn = true → .onReturn tag replyCode ∈ s.log
  returned : ∀ tag p replyCode, s.seen.broker tag = some p → p.returned = some replyCode →
    (s.returnEvents tag replyCode).Sublist s.log ∨ s.pub.demux = .marking tag replyCode ∨
      ∃ err, (p.attempt, err) ∈ s.pub.results
  ordered : ∀ tag p replyCode ack, s.seen.broker tag = some p → p.returned = some replyCode →
    p.confirmed = some ack →
    (s.returnEvents tag replyCode ++ [Event.confirm tag ack]).Sublist s.log ∨ s.Early p.attempt

theorem Logged.init (mandatory onReturn : Bool) (confirmTimeout publishBatchMaxSize : Int)
    : (init mandatory onReturn confirmTimeout publishBatchMaxSize : Wired buf).Logged := by
  constructor
  all_goals simp [Wired.init, Wired.seen, State.seen, State.init]

theorem Early.mono {a : Attempt} (h : s.Early a) (hresults : ∀ r ∈ s.pub.results, r ∈ s'.pub.results)
    : s'.Early a :=
  h.imp (hresults _) (hresults _)

theorem returnEvents_congr (honReturn : s'.onReturn = s.onReturn) (tag : Nat) (replyCode : UInt16)
    : s'.returnEvents tag replyCode = s.returnEvents tag replyCode := by
  simp only [returnEvents, honReturn]

theorem Logged.returned_of_selecting (h : s.Logged) (hdemux : s.pub.demux = .selecting)
    {replyCode : UInt16} (hp : s.seen.broker tag = some p) (hreturned : p.returned = some replyCode)
    : (s.returnEvents tag replyCode).Sublist s.log ∨ ∃ err, (p.attempt, err) ∈ s.pub.results := by
  simpa [hdemux] using h.returned tag p replyCode hp hreturned

theorem Logged.frame (h : s.Logged) (honReturn : s'.onReturn = s.onReturn)
    (hbroker : ∀ tag p, s.seen.broker tag = some p → s'.seen.broker tag = some p)
    (hbroker' : ∀ tag p, s'.seen.broker tag = some p → p.answered = true →
      s.seen.broker tag = some p)
    (hlog : s.log.Sublist s'.log) (hlog' : ∀ tag ack, .confirm tag ack ∈ s'.log →
      .confirm tag ack ∈ s.log)
    (hresults : ∀ r ∈ s.pub.results, r ∈ s'.pub.results)
    (hcalled : ∀ tag replyCode, s'.pub.demux = .marking tag replyCode → s'.called = true →
      s'.onReturn = true → .onReturn tag replyCode ∈ s'.log)
    (hmarking : ∀ tag replyCode, s.pub.demux = .marking tag replyCode →
      s'.pub.demux = .marking tag replyCode ∨ (s'.returnEvents tag replyCode).Sublist s'.log)
    : s'.Logged := by
  have hevents := returnEvents_congr honReturn
  refine ⟨?_, hcalled, ?_, ?_⟩
  . intro tag ack
    constructor
    . intro hmem
      have ⟨p, hp, hack⟩ := (h.confirmed tag ack).mp (hlog' tag ack hmem)
      exact ⟨p, hbroker tag p hp, hack⟩
    . intro hp
      have ⟨p, hp, hack⟩ := hp
      have hp := hbroker' tag p hp (by simp [Publishing.answered, hack])
      exact hlog.subset ((h.confirmed tag ack).mpr ⟨p, hp, hack⟩)
  . intro tag p replyCode hp hreturned
    have hp := hbroker' tag p hp (by simp [Publishing.answered, hreturned])
    rcases h.returned tag p replyCode hp hreturned with hsub | hdemux | ⟨err, hmem⟩
    . exact .inl (hevents tag replyCode ▸ hsub.trans hlog)
    . rcases hmarking tag replyCode hdemux with hdemux | hsub
      . exact .inr (.inl hdemux)
      . exact .inl hsub
    . exact .inr (.inr ⟨err, hresults _ hmem⟩)
  . intro tag p replyCode ack hp hreturned hack
    have hp := hbroker' tag p hp (by simp [Publishing.answered, hack])
    rcases h.ordered tag p replyCode ack hp hreturned hack with hsub | hearly
    . exact .inl (hevents tag replyCode ▸ hsub.trans hlog)
    . exact .inr (hearly.mono hresults)

theorem Logged.stay (h : s.Logged) (honReturn : s'.onReturn = s.onReturn)
    (hseen : s'.seen.broker = s.seen.broker) (hlog : s'.log = s.log)
    (hresults : s'.pub.results = s.pub.results) (hdemux : s'.pub.demux = s.pub.demux)
    (hcalled : s'.called = s.called) : s'.Logged := by
  refine h.frame honReturn ?_ ?_ ?_ ?_ ?_ ?_ ?_
  . rw [hseen]
    exact fun _ _ => id
  . rw [hseen]
    exact fun _ _ h _ => h
  . rw [hlog]
  . rw [hlog]
    exact fun _ _ => id
  . rw [hresults]
    exact fun _ => id
  . rw [hdemux, hcalled, honReturn, hlog]
    exact h.called
  . rw [hdemux]
    exact fun _ _ => .inl

theorem logged_publisher (h : s.Logged) (ho : s.seen.Orderly) {pub : State}
    (hleaves : s.pub.Leaves pub) : Logged { s with pub } := by
  have hseen : (∀ tag p, s.seen.broker tag = some p → (pub.seen s.pipe).broker tag = some p) ∧
      ∀ tag p, (pub.seen s.pipe).broker tag = some p → p.answered = true →
        s.seen.broker tag = some p := by
    cases hleaves.broker with
    | inl hbroker =>
      simp only [Wired.seen, State.seen, hbroker]
      exact ⟨fun _ _ => id, fun _ _ h _ => h⟩
    | inr hsent =>
      obtain ⟨a, ha, hbroker⟩ := hsent
      have hunsent : s.pub.broker a.deliveryTag = none := by
        simpa [Wired.seen, State.seen] using ho.unsent_attempt (a := a) ha
      constructor
      . intro tag p hp
        have htag : tag ≠ a.deliveryTag := by
          rintro rfl
          simp [Wired.seen, State.seen, hunsent] at hp
        simp only [State.seen, hbroker]
        rw [update_of_ne htag]
        exact hp
      . intro tag p hp hanswered
        simp only [State.seen, hbroker, update_apply] at hp
        split at hp
        . rw [map_some, some.injEq] at hp
          rw [← hp] at hanswered
          simp [Publishing.seen, Publishing.answered] at hanswered
        . exact hp
  refine h.frame rfl hseen.1 hseen.2 (List.Sublist.refl _) (fun _ _ => id) hleaves.results ?_ ?_
  . intro tag replyCode hdemux
    exact h.called tag replyCode (hleaves.demux ▸ hdemux)
  . intro tag replyCode hdemux
    exact .inl (hleaves.demux.trans hdemux)

theorem Logged.lookUp (h : s.Logged) {replyCode : UInt16} (honReturn : s'.onReturn = s.onReturn)
    (hp : s.seen.broker tag = some p) (hanswered : p.answered = false)
    (hseen : s'.seen.broker =
      update s.seen.broker tag (some { p with returned := some replyCode }))
    (hlog : s'.log = s.log) (hresults : s'.pub.results = s.pub.results)
    (hdemux : s.pub.demux = .selecting)
    (hcalled : ∀ t code, s'.pub.demux = .marking t code → s'.called = false)
    (hnew : s'.pub.demux = .marking tag replyCode ∨ ∃ err, (p.attempt, err) ∈ s.pub.results)
    : s'.Logged := by
  have hevents := returnEvents_congr honReturn
  have hconfirmed : p.confirmed = none := by
    simp only [Publishing.answered, Bool.or_eq_false_iff, isSome_eq_false_iff,
      isNone_iff_eq_none] at hanswered
    exact hanswered.2
  refine ⟨?_, ?_, ?_, ?_⟩
  . intro t ack
    rw [hlog, hseen, update_apply, h.confirmed]
    split
    . next ht =>
      rw [ht, hp]
      simp [hconfirmed]
    . rfl
  . intro t code hmarking hc
    rw [hcalled t code hmarking] at hc
    contradiction
  . intro t q code hq hreturned
    rw [hlog, hresults, hevents]
    rw [hseen, update_apply] at hq
    split at hq
    . next ht =>
      cases hq
      cases hreturned
      rw [ht]
      exact .inr hnew
    . exact (h.returned_of_selecting hdemux hq hreturned).imp id .inr
  . intro t q code ack hq hreturned hack
    unfold Early
    rw [hlog, hresults, hevents]
    rw [hseen, update_apply] at hq
    split at hq
    . cases hq
      rw [show p.confirmed = some ack from hack] at hconfirmed
      contradiction
    . exact h.ordered t q code ack hq hreturned hack

theorem early_of_result {σ : Confirms.Spec} (h : s.seen.Exact σ) (hp : s.seen.broker tag = some p)
    (hconfirmed : p.confirmed = none) (hdemux : s.pub.demux = .selecting) {err : Option Err}
    (hmem : (p.attempt, err) ∈ s.pub.results) : s.Early p.attempt := by
  have htag := h.numbered.tagged tag p hp
  have hdemux : s.seen.demux = .selecting := hdemux
  have hverdict : s.seen.verdict tag = none := by
    simp [State.verdict, hp, Publishing.verdict, hconfirmed, hdemux]
  rcases (h.told.results p.attempt err hmem).resolved (htag.symm ▸ hp) rfl with herr | herr | ⟨v, hv, _⟩
  . exact .inl (herr ▸ hmem)
  . exact .inr (herr ▸ hmem)
  . rw [htag, hverdict] at hv
    contradiction

theorem Logged.resolve (h : s.Logged) {σ : Confirms.Spec} (hexact : s.seen.Exact σ) {ack : Bool}
    (honReturn : s'.onReturn = s.onReturn) (hp : s.seen.broker tag = some p)
    (hconfirmed : p.confirmed = none)
    (hseen : s'.seen.broker =
      update s.seen.broker tag (some { p with confirmed := some ack }))
    (hlog : s'.log = s.log ++ [.confirm tag ack]) (hresults : s'.pub.results = s.pub.results)
    (hdemux : s.pub.demux = .selecting) (hdemux' : s'.pub.demux = .selecting) : s'.Logged := by
  have hevents := returnEvents_congr honReturn
  have hsub : s.log.Sublist s'.log := by
    rw [hlog]
    exact sublist_append_left _ _
  refine ⟨?_, ?_, ?_, ?_⟩
  . intro t b
    rw [hlog, hseen, update_apply, mem_append, h.confirmed, mem_singleton,
      Event.confirm.injEq]
    split
    . next ht =>
      rw [ht, hp]
      simp [hconfirmed, eq_comm]
    . next ht => simp [ht]
  . rw [hdemux']
    nofun
  . intro t q code hq hcode
    rw [hresults, hevents, hdemux']
    rw [hseen, update_apply] at hq
    split at hq
    . next ht =>
      cases hq
      rw [ht]
      exact (h.returned_of_selecting hdemux hp hcode).imp (·.trans hsub) .inr
    . exact (h.returned_of_selecting hdemux hq hcode).imp (·.trans hsub) .inr
  . intro t q code b hq hcode hack
    unfold Early
    rw [hresults, hevents]
    rw [hseen, update_apply] at hq
    split at hq
    . next ht =>
      cases hq
      cases hack
      rw [ht]
      rcases h.returned_of_selecting hdemux hp hcode with hevents | ⟨err, hmem⟩
      . left
        rw [hlog]
        exact hevents.append (List.Sublist.refl _)
      . have hearly : s.Early p.attempt := early_of_result hexact hp hconfirmed hdemux hmem
        exact .inr hearly
    . rcases h.ordered t q code b hq hcode hack with hevents | hearly
      . exact .inl (hevents.trans hsub)
      . exact .inr hearly

theorem logged_step (h : s.Logged) (hwf : s.Wf) (hexact : ∃ σ, s.seen.Exact σ)
    (hstep : s.step a = some s') : s'.Logged := by
  have ⟨σ, hexact⟩ := hexact
  have hseen := seen_step hwf hstep
  cases step_move hstep with
  | publisher ha hpub => exact logged_publisher h hexact.orderly (leaves_of_publisher ha hpub)
  | brokerReturn | brokerConfirm | read | sendConfirm | recvReturn | recvReturnClosed | recvConfirm =>
    have hseen : s.seen = _ := some.inj hseen
    exact h.stay rfl (by rw [← hseen]) rfl rfl rfl rfl
  | shutdown => exact h.stay rfl rfl rfl rfl rfl rfl
  | recvConfirmClosed hbuf hclosed hdemux =>
    refine h.frame rfl (fun _ _ => id) (fun _ _ h _ => h) (sublist_append_left _ _) ?_
      (fun _ => id) nofun ?_
    . simp
    . rw [hdemux]
      nofun
  | @unknown tag messageID replyCode hhand hmap =>
    have hpipe := pipe_of_hand hhand
    have hdemux := hwf.hand (by simp [hhand])
    have hne := State.messageID_ne_empty (hpipe ▸ hwf.pipe)
    have ⟨p, hp, hanswered, hid, hseen⟩ := State.seen_of_ret (hpipe ▸ hwf.pipe)
    rw [← hpipe] at hp hseen
    refine h.lookUp rfl hp hanswered hseen rfl rfl hdemux ?_ (.inr ?_)
    . simp [hdemux]
    . -- a message that is waited for is in the map
      cases hexact.numbered.accounted tag p hp with
      | inr hresult => exact hresult
      | inl hpublished =>
        have hmandatory := hwf.mandatory tag messageID replyCode (by simp [hpipe])
        have hlive : s.seen.Live tag :=
          .inl ⟨p.attempt, hpublished, hexact.numbered.tagged tag p hp⟩
        have hstored := (hexact.joined hmandatory).live tag p hp hanswered hlive
        have hmap : s.seen.returnTagMap messageID = none := hmap hne
        rw [hid, hmap] at hstored
        contradiction
  | @lookUp tag t messageID replyCode hhand hne hmap =>
    have hpipe := pipe_of_hand hhand
    have hdemux := hwf.hand (by simp [hhand])
    have hmandatory := hwf.mandatory tag messageID replyCode (by simp [hpipe])
    have ⟨p, hp, hanswered, hid, hseen⟩ := State.seen_of_ret (hpipe ▸ hwf.pipe)
    rw [← hpipe] at hp hseen
    have hown : t = tag := by
      apply (hexact.joined hmandatory).own tag p t hp hanswered
      rw [hid]
      exact hmap
    refine h.lookUp rfl hp hanswered hseen rfl rfl hdemux (fun _ _ _ => rfl) (.inl ?_)
    rw [hown]
  | @callOnReturn t replyCode hdemux =>
    have hlog : s.log.Sublist (if s.onReturn then s.log ++ [.onReturn t replyCode] else s.log) := by
      split
      . exact sublist_append_left _ _
      . exact List.Sublist.refl _
    refine h.frame rfl (fun _ _ => id) (fun _ _ h _ => h) hlog ?_ (fun _ => id) ?_ (fun _ _ => .inl)
    . intro tag ack hmem
      split at hmem
      . simpa using hmem
      . exact hmem
    . intro tag code hmarking _ honReturn
      have honReturn : s.onReturn = true := honReturn
      rw [hdemux, Demux.marking.injEq] at hmarking
      simp [honReturn, hmarking]
  | @markReturned t replyCode hdemux hcalled =>
    refine h.frame rfl (fun _ _ => id) (fun _ _ h _ => h) (sublist_append_left _ _) ?_
      (fun _ => id) nofun ?_
    . simp
    . intro tag code hmarking
      rw [hdemux, Demux.marking.injEq] at hmarking
      rw [← hmarking.1, ← hmarking.2]
      right
      unfold returnEvents
      split
      . next honReturn =>
        have hmem := h.called t replyCode hdemux hcalled honReturn
        exact (singleton_sublist.mpr hmem).append (List.Sublist.refl [Event.markReturned t replyCode])
      . exact sublist_append_right _ _
  | @resolve tag ack hhand =>
    have hpipe := pipe_of_hand hhand
    have hdemux := hwf.hand (by simp [hhand])
    have ⟨p, hp, hconfirmed, hseen⟩ := State.seen_of_confirm (hpipe ▸ hwf.pipe)
    rw [← hpipe] at hp hseen
    exact h.resolve hexact rfl hp hconfirmed hseen rfl rfl hdemux hdemux

def Action.own : Action → Bool
  | .recvConfirm | .recvConfirmClosed | .lookUp | .callOnReturn | .markReturned | .resolve => true
  | _ => false

def Exits (s : Wired buf) : Prop :=
  ∃ bs s', (∀ b ∈ bs, Action.own b = true) ∧ Run.run step s bs = some s' ∧ s'.pub.demux = .exited

theorem Exits.of_step (ha : a.own = true) (hstep : s.step a = some s') (h : s'.Exits)
    : s.Exits := by
  have ⟨bs, t, hbs, hrun, hexited⟩ := h
  refine ⟨a :: bs, t, ?_, ?_, hexited⟩
  . simpa [ha] using hbs
  . rw [Run.run_cons_of_step _ hstep]
    exact hrun

theorem exits_of_selecting (hdemux : s.pub.demux = .selecting) (hhand : s.hand = none)
    (hclosed : s.confirmCh.closed = true) : s.Exits := by
  -- the confirms that are in the buffer come first
  induction hbuf : s.confirmCh.buf generalizing s with
  | nil =>
    have hrecv : s.confirmCh.recv = some (none, s.confirmCh) :=
      Chan.recv_eq_some_none_iff.mpr ⟨hbuf, hclosed, rfl⟩
    have hstep : s.step .recvConfirmClosed = some { s with
        pub := { s.pub with
          confirms := { s.pub.confirms with tracker := s.pub.confirms.tracker.closeAll }
          demux := .exited }
        log := s.log ++ [.closeAll] } := by
      simp [step, recvConfirmClosed, selecting, hdemux, hhand, hrecv]
    exact .of_step rfl hstep ⟨[], _, by simp, rfl, rfl⟩
  | cons c rest ih =>
    have hlength : rest.length ≤ buf := by
      have := s.confirmCh.le_cap
      rw [hbuf, length_cons] at this
      omega
    have hrecv : s.confirmCh.recv = some (some c, ⟨rest, s.confirmCh.closed, hlength⟩) :=
      Chan.recv_eq_some_some_iff.mpr ⟨hbuf, rfl⟩
    have hstep : s.step .recvConfirm = some { s with
        confirmCh := ⟨rest, s.confirmCh.closed, hlength⟩
        hand := some (.confirm c.deliveryTag c.ack) } := by
      simp [step, recvConfirm, selecting, hdemux, hhand, hrecv]
    exact .of_step rfl hstep (.of_step (a := .resolve) rfl rfl (ih hdemux rfl hclosed rfl))

theorem exits_of_marking {t : Nat} {replyCode : UInt16} (hdemux : s.pub.demux = .marking t replyCode)
    (hhand : s.hand = none) (hclosed : s.confirmCh.closed = true) : s.Exits := by
  have hmark (s : Wired buf) (hdemux : s.pub.demux = .marking t replyCode) (hhand : s.hand = none)
      (hclosed : s.confirmCh.closed = true) (hcalled : s.called = true) : s.Exits := by
    have hstep : s.step .markReturned = some { s with
        pub := { s.pub with
          confirms := { s.pub.confirms with
            tracker := s.pub.confirms.tracker.markReturned t replyCode }
          demux := .selecting }
        log := s.log ++ [.markReturned t replyCode] } := by
      simp [step, markReturned, hdemux, hcalled]
    exact .of_step rfl hstep (exits_of_selecting rfl hhand hclosed)
  cases hcalled : s.called with
  | true => exact hmark s hdemux hhand hclosed hcalled
  | false =>
    have hstep : s.step .callOnReturn = some { s with
        called := true
        log := if s.onReturn then s.log ++ [.onReturn t replyCode] else s.log } := by
      simp [step, callOnReturn, hdemux, hcalled]
    exact .of_step rfl hstep (hmark _ hdemux hhand hclosed rfl)

theorem exits_of_closed (h : s.Wf) (hclosed : s.confirmCh.closed = true) : s.Exits := by
  cases hhand : s.hand with
  | none =>
    cases hdemux : s.pub.demux with
    | selecting => exact exits_of_selecting hdemux hhand hclosed
    | marking t replyCode => exact exits_of_marking hdemux hhand hclosed
    | exited => exact ⟨[], s, by simp, rfl, hdemux⟩
  | some f =>
    have hdemux := h.hand (by simp [hhand])
    cases f with
    | confirm tag ack =>
      have hstep : s.step .resolve = some { s with
          pub := { s.pub with
            confirms := { s.pub.confirms with
              tracker := if ack then s.pub.confirms.tracker.ack tag false
                else s.pub.confirms.tracker.nack tag false } }
          hand := none
          log := s.log ++ [.confirm tag ack] } := by
        simp [step, resolve, hhand]
      exact .of_step rfl hstep (exits_of_selecting hdemux rfl hclosed)
    | ret tag messageID replyCode =>
      have hne := State.messageID_ne_empty (pipe_of_hand hhand ▸ h.pipe)
      cases hmap : s.pub.returnTagMap messageID with
      | none =>
        have hstep : s.step .lookUp = some { s with hand := none } := by
          simp [step, lookUp, hhand, hne, hmap]
        exact .of_step rfl hstep (exits_of_selecting hdemux rfl hclosed)
      | some t =>
        have hstep : s.step .lookUp = some { s with
            pub := { s.pub with
              returnTagMap := update s.pub.returnTagMap messageID none
              demux := .marking t replyCode }
            hand := none
            called := false } := by
          simp [step, lookUp, hhand, hne, hmap]
        exact .of_step rfl hstep (exits_of_marking rfl rfl hclosed)

-- a message that is returned and still waited for is reported as unroutable when it is acked
structure ReturnsFirst (s : Wired buf) : Prop where
  ordered : ∀ tag p replyCode ack, s.pub.broker tag = some p → p.returned = some replyCode →
    .confirm tag ack ∈ s.log → ¬s.Early p.attempt →
    (s.returnEvents tag replyCode ++ [Event.confirm tag ack]).Sublist s.log
  results : ∀ tag p err replyCode, s.pub.broker tag = some p → (p.attempt, err) ∈ s.pub.results →
    err ≠ some .confirmTimeout → err ≠ some .ctx →
    (err = some (.unroutable replyCode) ↔
      p.returned = some replyCode ∧ .confirm tag true ∈ s.log)
  waiting : ∀ tag p replyCode, s.pub.broker tag = some p → p.attempt ∈ s.pub.published →
    (s.pub.confirms.left tag = some (some (.unroutable replyCode)) ↔
      p.returned = some replyCode ∧ .confirm tag true ∈ s.log)
  closed : ∀ tag p, s.pub.broker tag = some p → s.pub.demux = .exited →
    (∀ ack, .confirm tag ack ∉ s.log) →
    (p.attempt ∈ s.pub.published → s.pub.confirms.left tag = some (some .closed)) ∧
    ∀ err, (p.attempt, err) ∈ s.pub.results → err ≠ some .confirmTimeout → err ≠ some .ctx →
      err = some .channelClosed
  exits : s.confirmCh.closed = true → s.Exits

structure Good (s : Wired buf) : Prop where
  wf : s.Wf
  exact : ∃ σ, s.seen.Exact σ
  logged : s.Logged

theorem good_init (mandatory onReturn : Bool) (confirmTimeout publishBatchMaxSize : Int)
    : (init mandatory onReturn confirmTimeout publishBatchMaxSize : Wired buf).Good := by
  refine ⟨Wf.init _ _ _ _, ⟨.init, ?_⟩, Logged.init _ _ _ _⟩
  exact State.Exact.init mandatory confirmTimeout publishBatchMaxSize

theorem good_step (h : s.Good) (ha : s.Orderly a) (hstep : s.step a = some s') : s'.Good := by
  have ⟨σ, hexact⟩ := h.exact
  refine ⟨?_, ?_, ?_⟩
  . exact wf_step h.wf hexact.orderly ha hstep
  . exact exact_step h.wf h.exact ha hstep
  . exact logged_step h.logged h.wf h.exact hstep

theorem seen_of_confirmed {broker : Nat → Option Publishing} {frames : List Frame}
    (h : Pipe broker frames) (hp : broker tag = some p) {ack : Bool}
    (hack : (p.seen frames tag).confirmed = some ack)
    : (p.seen frames tag).returned = p.returned := by
  unfold Publishing.seen at hack ⊢
  dsimp only at hack ⊢
  split at hack
  . contradiction
  . next hconfirm =>
    split
    . next hret =>
      have ⟨f, hf, hfret⟩ := any_eq_true.mp hret
      cases f with
      | confirm => contradiction
      | ret t messageID replyCode =>
        have ht : t = tag := of_decide_eq_true hfret
        rw [ht] at hf
        have ⟨q, hq, _, _, hany⟩ := h.ret tag messageID replyCode hf
        rw [hp, some.injEq] at hq
        exact absurd (hany (by rw [← hq, hack]; rfl)) hconfirm
    . rfl

theorem seen_broker (hp : s.pub.broker tag = some p)
    : s.seen.broker tag = some (p.seen s.pipe tag) := by
  simp [Wired.seen, State.seen, hp]

theorem Good.confirmed_iff (h : s.Good) (hp : s.pub.broker tag = some p) (ack : Bool)
    : .confirm tag ack ∈ s.log ↔ (p.seen s.pipe tag).confirmed = some ack := by
  rw [h.logged.confirmed, seen_broker hp]
  simp

theorem Good.verdict_iff (h : s.Good) (hp : s.pub.broker tag = some p) (replyCode : UInt16)
    : s.seen.verdict tag = some (some (.unroutable replyCode)) ↔
        p.returned = some replyCode ∧ .confirm tag true ∈ s.log := by
  unfold State.verdict
  rw [h.confirmed_iff hp, seen_broker hp, bind_some]
  unfold Publishing.verdict
  cases hack : (p.seen s.pipe tag).confirmed with
  | none =>
    simp only [map_none, none_or, reduceCtorEq, and_false, iff_false]
    split <;> simp
  | some ack =>
    rw [seen_of_confirmed h.wf.pipe hp hack]
    cases ack with
    | true => simp
    | false => simp

theorem Good.verdict_of_closed (h : s.Good) (hp : s.pub.broker tag = some p)
    (hexited : s.pub.demux = .exited) (hlog : ∀ ack, .confirm tag ack ∉ s.log)
    : s.seen.verdict tag = some (some .closed) := by
  have hnone : (p.seen s.pipe tag).confirmed = none := by
    cases hack : (p.seen s.pipe tag).confirmed with
    | none => rfl
    | some ack => exact absurd ((h.confirmed_iff hp ack).mpr hack) (hlog ack)
  have hexited : s.seen.demux = .exited := hexited
  simp [State.verdict, seen_broker hp, Publishing.verdict, hnone, hexited]

theorem Good.result (h : s.Good) (hp : s.pub.broker tag = some p) {err : Option Err}
    (hmem : (p.attempt, err) ∈ s.pub.results) (htimeout : err ≠ some .confirmTimeout)
    (hctx : err ≠ some .ctx) : ∃ v, s.seen.verdict tag = some v ∧ err = v.map mapConfirmError := by
  have ⟨σ, hexact⟩ := h.exact
  have htag := hexact.numbered.tagged tag (p.seen s.pipe tag) (seen_broker hp)
  have hbroker : s.seen.broker p.attempt.deliveryTag = some (p.seen s.pipe tag) :=
    htag.symm ▸ seen_broker hp
  rcases (hexact.told.results p.attempt err hmem).resolved hbroker rfl with herr | herr | hv
  . exact absurd herr htimeout
  . exact absurd herr hctx
  . exact htag ▸ hv

theorem Good.left (h : s.Good) (hp : s.pub.broker tag = some p)
    (hpublished : p.attempt ∈ s.pub.published) : s.pub.confirms.left tag = s.seen.verdict tag := by
  have ⟨σ, hexact⟩ := h.exact
  have htag := hexact.numbered.tagged tag (p.seen s.pipe tag) (seen_broker hp)
  rw [← hexact.left_eq (.inl ⟨p.attempt, hpublished, htag⟩)]
  exact (hexact.told.models.tags tag).left_eq

theorem Good.returnsFirst (h : s.Good) : s.ReturnsFirst := by
  constructor
  . intro tag p replyCode ack hp hreturned hmem hearly
    have hack := (h.confirmed_iff hp ack).mp hmem
    have hreturned := (seen_of_confirmed h.wf.pipe hp hack).trans hreturned
    exact (h.logged.ordered tag _ replyCode ack (seen_broker hp) hreturned hack).resolve_right hearly
  . intro tag p err replyCode hp hmem htimeout hctx
    have ⟨v, hv, herr⟩ := h.result hp hmem htimeout hctx
    rw [← h.verdict_iff hp, hv, herr]
    cases v with
    | none => simp
    | some err => cases err <;> simp [mapConfirmError]
  . intro tag p replyCode hp hpublished
    rw [h.left hp hpublished]
    exact h.verdict_iff hp replyCode
  . intro tag p hp hexited hlog
    have hverdict := h.verdict_of_closed hp hexited hlog
    constructor
    . intro hpublished
      rw [h.left hp hpublished]
      exact hverdict
    . intro err hmem htimeout hctx
      have ⟨v, hv, herr⟩ := h.result hp hmem htimeout hctx
      rw [hverdict, some.injEq] at hv
      rw [herr, ← hv]
      rfl
  . exact exits_of_closed h.wf

end Wired

theorem returnsFirst_of_orderly {buf : Nat} (mandatory onReturn : Bool)
    (confirmTimeout publishBatchMaxSize : Int) (as : List Wired.Action) (s : Wired buf)
    (hrun : Run.run Wired.step
      (.init mandatory onReturn confirmTimeout publishBatchMaxSize : Wired buf) as = some s)
    (horderly : Run.Along Wired.step Wired.Orderly
      (.init mandatory onReturn confirmTimeout publishBatchMaxSize : Wired buf) as)
    : s.ReturnsFirst := by
  have h := Run.inv_of_run (fun _ _ _ => Wired.good_step)
    (Wired.good_init mandatory onReturn confirmTimeout publishBatchMaxSize) horderly hrun
  exact h.returnsFirst

theorem uuid_ne : "uuid" ≠ "" := by decide

theorem order_ne : "order-7" ≠ "" := by decide

-- the confirm of the second message is in `confirmCh` when the return of the first one is handed over
def returnPassesRun : List Wired.Action :=
  [.publishBatch [⟨"order-7", ⟨"uuid", uuid_ne⟩, true⟩, ⟨"", ⟨"uuid", uuid_ne⟩, true⟩],
    .call .store, .call .register, .call (.publish true),
    .call .store, .call .register, .call (.publish true),
    .brokerConfirm 2 true, .brokerReturn 1 312, .brokerConfirm 1 true,
    .read, .sendConfirm, .read, .recvReturn, .read, .sendConfirm,
    .lookUp, .callOnReturn, .markReturned, .recvConfirm, .resolve, .recvConfirm, .resolve,
    .call (.wait .begin), .call (.wait .done), .call (.wait .delete)]

def returnedAttempt : Attempt := ⟨0, ⟨"order-7", order_ne⟩, 1⟩

theorem returnsFirst_of_orderly_returnPassesRun
    : ∃ s : Wired 2, Run.run Wired.step (.init true true 30 0) returnPassesRun = some s ∧
        s.log = [.onReturn 1 312, .markReturned 1 312, .confirm 2 true, .confirm 1 true] ∧
        s.pub.results = [(returnedAttempt, some (.unroutable 312))] ∧
        s.ReturnsFirst := by
  have ⟨s, hs, h⟩ := map_eq_some_iff.mp (by decide :
    (Run.run Wired.step (.init true true 30 0 : Wired 2) returnPassesRun).map
      (fun s => (s.log, s.pub.results)) =
    some ([.onReturn 1 312, .markReturned 1 312, .confirm 2 true, .confirm 1 true],
      [(returnedAttempt, some (.unroutable 312))]))
  have horderly : Run.Along Wired.step Wired.Orderly (.init true true 30 0 : Wired 2)
      returnPassesRun := by decide
  simp only [Prod.mk.injEq] at h
  exact ⟨s, hs, h.1, h.2, returnsFirst_of_orderly true true 30 0 returnPassesRun s hs horderly⟩

/--
Without the frames that are on their way, an orderly run is one of the channel.
-/
theorem refines_channel {buf : Nat} (mandatory onReturn : Bool)
    (confirmTimeout publishBatchMaxSize : Int) (as : List Wired.Action) (s : Wired buf)
    (hrun : Run.run Wired.step
      (.init mandatory onReturn confirmTimeout publishBatchMaxSize : Wired buf) as = some s)
    (horderly : Run.Along Wired.step Wired.Orderly
      (.init mandatory onReturn confirmTimeout publishBatchMaxSize : Wired buf) as)
    : Run.run State.step (.init mandatory confirmTimeout publishBatchMaxSize)
        (Run.observed Wired.step Wired.channelActions
          (.init mandatory onReturn confirmTimeout publishBatchMaxSize : Wired buf) as)
        =
      some s.seen := by
  have hsim : ∀ (s : Wired buf) a s' t, s.Good ∧ s.seen = t → s.Orderly a → s.step a = some s' →
      ∃ t', Run.run State.step t (s.channelActions a) = some t' ∧ s'.Good ∧ s'.seen = t' := by
    rintro s a s' _ ⟨h, rfl⟩ ha hstep
    exact ⟨s'.seen, Wired.seen_step h.wf hstep, Wired.good_step h ha hstep, rfl⟩
  obtain ⟨_, ht, _, rfl⟩ := Run.simulation_of_run hsim ⟨Wired.good_init _ _ _ _, rfl⟩ horderly hrun
  exact ht

theorem refines_channel_returnPassesRun
    : ∃ s : Wired 2, Run.run Wired.step (.init true true 30 0) returnPassesRun = some s ∧
        Run.run State.step (.init true 30 0)
          (Run.observed Wired.step Wired.channelActions (.init true true 30 0 : Wired 2)
            returnPassesRun) = some s.seen := by
  obtain ⟨s, hs⟩ := Option.isSome_iff_exists.mp (by decide :
    (Run.run Wired.step (.init true true 30 0 : Wired 2) returnPassesRun).isSome = true)
  exact ⟨s, hs, refines_channel true true 30 0 returnPassesRun s hs (by decide)⟩

end Publisher
