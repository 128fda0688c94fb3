import Warren.Rpc.Replier.Impl

namespace Replier

open Option
open Dispatch

variable {Body : Type}

def Phase.plain : Phase Body → Bool
  | .handling => true
  | .reporting => true
  | .dropping => true
  | .encoding => true
  | .locking _ => true
  | _ => false

def Phase.free : Phase Body → Bool
  | .publishing _ _ _ => false
  | .waiting _ _ => false
  | .confirmed => false
  | _ => true

def Phase.locks : Phase Body → Bool
  | .ensuring _ => true
  | .registering _ _ => true
  | .publishing _ _ _ => true
  | _ => false

namespace State

inductive HandlerMove (cfg : Config) (s : State Body) (i : Nat) (r : Serving Body)
    : HandlerAction Body → State Body → Prop where
  | pass (a : HandlerAction Body) (p : Phase Body) (hbefore : r.phase.plain = true)
    (hplain : p.plain = true)
    : HandlerMove cfg s i r a (s.goto i r p)
  | panic (d : Dispatching) (hphase : r.phase.plain = true)
    (hstep : r.dispatch.step cfg.consumer false (.handlerReturns (some ⟨[]⟩)) = some d)
    : HandlerMove cfg s i r .panics (s.setServing i { r with dispatch := d, phase := .ended })
  | lock (body : Body) (hphase : r.phase = .locking body) (hmu : s.mu = none)
    : HandlerMove cfg s i r .lock ({ s with mu := some i }.goto i r (.ensuring body))
  | openFails (body : Body) (hphase : r.phase = .ensuring body)
    : HandlerMove cfg s i r (.ensureEntry false) (fail { s with entry := none } i r)
  | opened (body : Body) (hphase : r.phase = .ensuring body)
    : HandlerMove cfg s i r (.ensureEntry true)
        (goto { s with entry := some s.entries.length, entries := s.entries ++ [.new] } i r
          (.registering s.entries.length body))
  | ensured (opens : Bool) (e : Nat) (body : Body) (hphase : r.phase = .ensuring body)
    : HandlerMove cfg s i r (.ensureEntry opens) (s.goto i r (.registering e body))
  | registerFails (e : Nat) (body : Body) (entry entry' : Entry Body)
    (hphase : r.phase = .registering e body) (hentry : s.entries[e]? = some entry)
    (htrack : entry.track (.register entry.nextPublishSeqNo) = some entry')
    : HandlerMove cfg s i r .register ((s.setEntry e entry').fail i r)
  | registered (e : Nat) (body : Body) (entry entry' : Entry Body)
    (hphase : r.phase = .registering e body) (hentry : s.entries[e]? = some entry)
    (htrack : entry.track (.register entry.nextPublishSeqNo) = some entry')
    : HandlerMove cfg s i r .register
        ((s.setEntry e entry').goto i r (.publishing e entry.nextPublishSeqNo body))
  | published (e tag : Nat) (body : Body) (entry : Entry Body)
    (hphase : r.phase = .publishing e tag body) (hentry : s.entries[e]? = some entry)
    : HandlerMove cfg s i r (.publish true)
        ({ s.setEntry e (entry.send tag ⟨r.request.replyTo, r.request.correlationID, body⟩) with
          mu := none }.setServing i { r with phase := .waiting e tag, reply := some (e, tag) })
  | publishFails (e tag : Nat) (body : Body) (entry entry' : Entry Body)
    (hphase : r.phase = .publishing e tag body) (hentry : s.entries[e]? = some entry)
    (htrack : entry.track (.cancel tag) = some entry')
    : HandlerMove cfg s i r (.publish false) ((s.setEntry e entry').fail i r)
  | waits (e tag : Nat) (w : Publisher.WaitStep) (entry entry' : Entry Body)
    (hphase : r.phase = .waiting e tag) (hentry : s.entries[e]? = some entry)
    (htrack : entry.track (w.action tag cfg.confirmTimeout) = some entry')
    : HandlerMove cfg s i r (.wait w) (s.setEntry e entry')
  | confirmed (e tag x : Nat) (w : Publisher.WaitStep) (entry entry' : Entry Body)
    (rest : List (Nat × Option Confirms.Err)) (hphase : r.phase = .waiting e tag)
    (hentry : s.entries[e]? = some entry)
    (htrack : entry.track (w.action tag cfg.confirmTimeout) = some entry')
    (hresult : entry'.confirms.results.drop entry.confirms.results.length = (x, none) :: rest)
    : HandlerMove cfg s i r (.wait w) ((s.setEntry e entry').goto i r .confirmed)
  | unconfirmed (e tag : Nat) (w : Publisher.WaitStep) (entry entry' : Entry Body)
    (hphase : r.phase = .waiting e tag) (hentry : s.entries[e]? = some entry)
    (htrack : entry.track (w.action tag cfg.confirmTimeout) = some entry')
    : HandlerMove cfg s i r (.wait w) ((s.setEntry e entry').goto i r .dropping)
  | decide (a : HandlerAction Body) (v : Verdict) (d : Dispatching) (n : Nat)
    (hphase : r.phase = .dropping ∧ v = .nack false ∨ r.phase = .confirmed ∧ v = .ack)
    (hstep : r.dispatch.step cfg.consumer false (.begin 0 v) = some d)
    : HandlerMove cfg s i r a
        (setServing { s with dropNoDLX := n } i { r with dispatch := d, phase := .deciding })
  | verdict (a : CallAction) (d : Dispatching) (hphase : r.phase = .deciding)
    (hstep : r.dispatch.step cfg.consumer false (.call (some 0) a) = some d)
    : HandlerMove cfg s i r (.verdict a)
        (s.setServing i { r with dispatch := d, phase := .deciding })
  | returnNil (d : Dispatching) (hphase : r.phase = .deciding)
    (hcall : r.dispatch.calls (some 0) = .returned)
    (hstep : r.dispatch.step cfg.consumer false (.handlerReturns none) = some d)
    : HandlerMove cfg s i r .returnNil (s.setServing i { r with dispatch := d, phase := .ended })

variable {cfg : Config} {s s' : State Body} {i : Nat} {r : Serving Body}

theorem plain_report (cfg : Config) : (cfg.report : Phase Body).plain = true := by
  unfold Config.report
  split
  . rfl
  . rfl

theorem deliveryStep_eq_some {p : Phase Body} {a : StepAction}
    (h : s.deliveryStep cfg i r p a = some s')
    : ∃ d, r.dispatch.step cfg.consumer false a = some d ∧
        s' = s.setServing i { r with dispatch := d, phase := p } := by
  have ⟨d, hstep, heq⟩ := map_eq_some_iff.mp h
  exact ⟨d, hstep, heq.symm⟩

variable {e : Nat} {body : Body}

theorem trackEntry_eq_some {a : Confirms.Action} (h : s.trackEntry e a = some s')
    : ∃ entry entry', s.entries[e]? = some entry ∧ entry.track a = some entry' ∧
        s' = s.setEntry e entry' := by
  have ⟨entry', hbind, heq⟩ := map_eq_some_iff.mp h
  have ⟨entry, hentry, htrack⟩ := bind_eq_some_iff.mp hbind
  exact ⟨entry, entry', hentry, htrack, heq.symm⟩

theorem panic_move (hphase : r.phase.plain = true) (h : s.panic cfg i r = some s')
    : s.HandlerMove cfg i r .panics s' := by
  have ⟨d, hstep, heq⟩ := deliveryStep_eq_some h
  exact heq ▸ .panic d hphase hstep

theorem ensureEntryLocked_cases (s : State Body) (opens : Bool)
    : s.ensureEntryLocked opens = s.openEntry opens ∨
        ∃ e, s.ensureEntryLocked opens = (s, some e) := by
  unfold ensureEntryLocked
  split
  . exact .inl rfl
  . next e _ =>
    split
    . exact .inl rfl
    . exact .inr ⟨e, rfl⟩

theorem ensureEntry_move {opens : Bool} (hphase : r.phase = .ensuring body)
    : s.HandlerMove cfg i r (.ensureEntry opens) (s.ensureEntry i r body opens) := by
  unfold ensureEntry
  rcases s.ensureEntryLocked_cases opens with hopen | ⟨e, hlive⟩
  . rw [hopen]
    cases opens with
    | true => exact .opened body hphase
    | false => exact .openFails body hphase
  . rw [hlive]
    exact .ensured opens e body hphase

theorem register_move (hphase : r.phase = .registering e body)
    (h : s.register i r e body = some s') : s.HandlerMove cfg i r .register s' := by
  unfold register at h
  split at h
  . contradiction
  . next entry hentry =>
    split at h
    . contradiction
    . next t htrack =>
      have ⟨entry₁, entry', hentry₁, htrack', heq⟩ := trackEntry_eq_some htrack
      rw [hentry, some.injEq] at hentry₁
      subst hentry₁ heq
      split at h
      . exact some.inj h ▸ .registerFails e body entry entry' hphase hentry htrack'
      . exact some.inj h ▸ .registered e body entry entry' hphase hentry htrack'

theorem publish_move {tag : Nat} {ok : Bool} (hphase : r.phase = .publishing e tag body)
    (h : s.publish i r e tag body ok = some s') : s.HandlerMove cfg i r (.publish ok) s' := by
  unfold publish at h
  split at h
  . contradiction
  . next entry hentry =>
    cases ok with
    | true => exact some.inj h ▸ .published e tag body entry hphase hentry
    | false =>
      have ⟨t, htrack, heq⟩ := map_eq_some_iff.mp h
      have ⟨entry₁, entry', hentry₁, htrack', hs⟩ := trackEntry_eq_some htrack
      subst hs heq
      exact .publishFails e tag body entry₁ entry' hphase hentry₁ htrack'

theorem wait_move {tag : Nat} {w : Publisher.WaitStep} (hphase : r.phase = .waiting e tag)
    (h : s.wait cfg i r e tag w = some s') : s.HandlerMove cfg i r (.wait w) s' := by
  grind [HandlerMove, wait]

theorem nackDrop_move (hphase : r.phase = .dropping) (h : s.nackDrop cfg i r = some s')
    : s.HandlerMove cfg i r .nackDrop s' := by
  have ⟨d, hstep, heq⟩ := deliveryStep_eq_some h
  rw [heq]
  split
  . exact .decide _ _ d s.dropNoDLX (.inl ⟨hphase, rfl⟩) hstep
  . exact .decide _ _ d (s.dropNoDLX + 1) (.inl ⟨hphase, rfl⟩) hstep

theorem handlerStep_move {a : HandlerAction Body} (h : s.handlerStep cfg i r a = some s')
    : s.HandlerMove cfg i r a s' := by
  unfold handlerStep at h
  split at h
  . next hphase =>
    refine some.inj h ▸ .pass _ _ (by rw [hphase]; rfl) ?_
    split
    . exact plain_report cfg
    . rfl
  . next hphase => exact some.inj h ▸ .pass _ _ (by rw [hphase]; rfl) (plain_report cfg)
  . next hphase => exact panic_move (by rw [hphase]; rfl) h
  . next hphase => exact some.inj h ▸ .pass _ _ (by rw [hphase]; rfl) rfl
  . next hphase => exact panic_move (by rw [hphase]; rfl) h
  . next hphase => exact some.inj h ▸ .pass _ _ (by rw [hphase]; rfl) rfl
  . next hphase => exact some.inj h ▸ .pass _ _ (by rw [hphase]; rfl) (plain_report cfg)
  . next hphase => exact panic_move (by rw [hphase]; rfl) h
  . next hphase =>
    split at h
    . next hmu => exact some.inj h ▸ .lock _ hphase hmu
    . contradiction
  . next hphase => exact some.inj h ▸ ensureEntry_move hphase
  . next hphase => exact register_move hphase h
  . next hphase => exact publish_move hphase h
  . next hphase => exact wait_move hphase h
  . next hphase => exact nackDrop_move hphase h
  . next hphase =>
    have ⟨d, hstep, heq⟩ := deliveryStep_eq_some h
    exact heq ▸ .decide _ _ d s.dropNoDLX (.inr ⟨hphase, rfl⟩) hstep
  . next hphase =>
    have ⟨d, hstep, heq⟩ := deliveryStep_eq_some h
    exact heq ▸ .verdict _ d hphase hstep
  . next hphase =>
    split at h
    . next hcall =>
      have ⟨d, hstep, heq⟩ := deliveryStep_eq_some h
      exact heq ▸ .returnNil d hphase hcall hstep
    . contradiction
  . contradiction

inductive Move (cfg : Config) (s : State Body) : Action Body → State Body → Prop where
  | deliver (request : Request) (chanDone : Bool) (ctx : Option CtxEnd)
    : Move cfg s (.deliver request chanDone ctx) { s with
        requests := s.requests ++
          [⟨request, .init request.delivery .new chanDone ctx, .handling, none⟩] }
  | dispatch (i : Nat) (r : Serving Body) (a : StepAction) (d : Dispatching)
    (hr : s.requests[i]? = some r) (hown : ofHandler a = false)
    (hstep : r.dispatch.step cfg.consumer false a = some d)
    : Move cfg s (.dispatch i a) (s.setServing i { r with dispatch := d })
  | handler (i : Nat) (r : Serving Body) (a : HandlerAction Body) (s' : State Body)
    (hr : s.requests[i]? = some r) (hrunning : r.dispatch.handler = .running)
    (hmove : s.HandlerMove cfg i r a s')
    : Move cfg s (.handler i a) s'
  | track (a : Action Body) (e : Nat) (b : Confirms.Action) (entry entry' : Entry Body)
    (hentry : s.entries[e]? = some entry) (htrack : entry.track b = some entry')
    (hframe : b = .closeAll ∨ (∃ tag multiple, b = .ack tag multiple) ∨
      ∃ tag multiple, b = .nack tag multiple)
    : Move cfg s a (s.setEntry e entry')
  | closeCh (e : Nat) (entry : Entry Body) (hentry : s.entries[e]? = some entry)
    : Move cfg s (.closeCh e) (s.setEntry e { entry with closeCh := true })
  | closePublisher : Move cfg s .closePublisher { s with entry := none }

theorem step_move {a : Action Body} (h : s.step cfg a = some s') : s.Move cfg a s' := by
  cases a with
  | deliver request chanDone ctx => exact some.inj h ▸ .deliver request chanDone ctx
  | dispatch i a =>
    simp only [step] at h
    split at h
    . contradiction
    . next r hr =>
      split at h
      . contradiction
      . next hown =>
        have ⟨d, hstep, heq⟩ := deliveryStep_eq_some h
        exact heq ▸ .dispatch i r a d hr (by simpa using hown) hstep
  | handler i a =>
    simp only [step] at h
    split at h
    . contradiction
    . next r hr =>
      split at h
      . next hrunning => exact .handler i r a s' hr hrunning (handlerStep_move h)
      . contradiction
  | confirm e tag multiple ack =>
    have ⟨entry, entry', hentry, htrack, heq⟩ := trackEntry_eq_some h
    refine heq ▸ .track _ e _ entry entry' hentry htrack (.inr ?_)
    split
    . exact .inl ⟨tag, multiple, rfl⟩
    . exact .inr ⟨tag, multiple, rfl⟩
  | closeAll e =>
    have ⟨entry, entry', hentry, htrack, heq⟩ := trackEntry_eq_some h
    exact heq ▸ .track _ e _ entry entry' hentry htrack (.inl rfl)
  | closeCh e =>
    have ⟨entry, hentry, heq⟩ := map_eq_some_iff.mp h
    exact heq ▸ .closeCh e entry hentry
  | closePublisher =>
    simp only [step] at h
    split at h
    . exact some.inj h ▸ .closePublisher
    . contradiction

end State
end Replier
