import Warren.Base.Procs
import Warren.Rpc.Replier.Moves

namespace Replier

open Option
open Confirms Procs Nat

variable {Body : Type}

namespace Entry

structure Sound (entry : Entry Body) : Prop where
  models : ∃ σ, entry.confirms.Models σ
  acked : entry.confirms.Acked entry.acked
  waits : ∀ {tag}, entry.confirms.waits tag ≠ none → tag < entry.nextPublishSeqNo

structure Grows (entry entry' : Entry Body) : Prop where
  seqNo : entry.nextPublishSeqNo ≤ entry'.nextPublishSeqNo
  sent : ∀ {tag}, tag < entry.nextPublishSeqNo → entry'.sent tag = entry.sent tag
  acked : ∀ {tag}, tag < entry.nextPublishSeqNo → entry.acked tag = true → entry'.acked tag = true

variable {entry entry' : Entry Body}

theorem Grows.refl (entry : Entry Body) : entry.Grows entry :=
  ⟨le_refl _, fun _ => rfl, fun _ => id⟩

theorem sound_new : (new : Entry Body).Sound where
  models := ⟨.init, .init⟩
  acked := Confirms.State.acked_init
  waits := by
    intro tag h
    contradiction

def Tracks (entry : Entry Body) : Confirms.Action → Prop
  | .register tag => tag = entry.nextPublishSeqNo
  | .waitBegin tag _ => tag < entry.nextPublishSeqNo
  | _ => True

variable {a : Confirms.Action}

theorem track_eq_some (h : entry.track a = some entry')
    : ∃ confirms, entry.confirms.step a = some confirms ∧
        entry' = { entry with confirms, acked := entry.confirms.ackedAfter entry.acked a } := by
  have ⟨confirms, hstep, heq⟩ := map_eq_some_iff.mp h
  exact ⟨confirms, hstep, heq.symm⟩

variable {tag e : Nat}

theorem acked_of_tracks (ha : entry.Tracks a) (htag : tag < entry.nextPublishSeqNo)
    (hacked : entry.acked tag = true) : entry.confirms.ackedAfter entry.acked a tag = true := by
  cases a with
  | register x =>
    have hx : tag ≠ x := by
      have : x = entry.nextPublishSeqNo := ha
      omega
    dsimp only [State.ackedAfter]
    split
    . exact hacked
    . rwa [Function.update_of_ne hx]
  | ack x multiple => simp [State.ackedAfter, hacked]
  | _ => exact hacked

theorem Sound.registrable (h : entry.Sound) (ha : entry.Tracks a)
    : entry.confirms.Registrable a := by
  cases a with
  | register tag =>
    by_contra hwait
    have := h.waits hwait
    have : tag = entry.nextPublishSeqNo := ha
    omega
  | _ => trivial

theorem Sound.track (h : entry.Sound) (htrack : entry.track a = some entry') (ha : entry.Tracks a)
    : entry'.Sound := by
  have ⟨confirms, hstep, heq⟩ := track_eq_some htrack
  have ⟨σ, hmodels⟩ := h.models
  have ⟨σ', hmodels', hacked⟩ := h.acked.step hmodels (h.registrable ha) hstep
  subst heq
  refine ⟨⟨σ', hmodels'⟩, hacked, ?_⟩
  intro tag hwait
  cases State.waits_of_step hstep hwait with
  | inl hold => exact h.waits hold
  | inr hbegin =>
    have ⟨timeout, hbegin⟩ := hbegin
    subst hbegin
    exact ha

theorem grows_track (htrack : entry.track a = some entry') (ha : entry.Tracks a)
    : entry.Grows entry' := by
  have ⟨confirms, hstep, heq⟩ := track_eq_some htrack
  subst heq
  exact ⟨le_refl _, fun _ => rfl, acked_of_tracks ha⟩

theorem seqNo_track (htrack : entry.track a = some entry')
    : entry'.nextPublishSeqNo = entry.nextPublishSeqNo := by
  have ⟨confirms, hstep, heq⟩ := track_eq_some htrack
  rw [heq]

theorem Sound.send (h : entry.Sound) (tag : Nat) (reply : Reply Body) : (entry.send tag reply).Sound :=
  ⟨h.models, h.acked, fun hwait => lt_succ_of_lt (h.waits hwait)⟩

theorem grows_send (htag : tag = entry.nextPublishSeqNo) (reply : Reply Body)
    : entry.Grows (entry.send tag reply) := by
  refine ⟨le_succ _, ?_, fun _ => id⟩
  intro x hx
  have hne : x ≠ tag := by omega
  exact Function.update_of_ne hne _ _

theorem Sound.acked_of_result (h : entry.Sound) {w : Publisher.WaitStep} {x : Nat} {timeout : Int}
    (htrack : entry.track (w.action tag timeout) = some entry') {rest : List (Nat × Option Err)}
    (hresult : entry'.confirms.results.drop entry.confirms.results.length = (x, none) :: rest)
    : entry'.acked tag = true := by
  have ⟨confirms, hstep, heq⟩ := track_eq_some htrack
  subst heq
  have ⟨tag', hdelete, hleft⟩ := State.left_of_result hstep hresult
  cases w with
  | delete =>
    obtain rfl := Action.waitDelete.inj hdelete
    exact h.acked tag hleft
  | _ => contradiction

end Entry

namespace State

def Confirmed (s : State Body) (r : Serving Body) : Prop :=
  ∃ e tag entry body, r.reply = some (e, tag) ∧ s.entries[e]? = some entry ∧
    entry.sent tag = some ⟨r.request.replyTo, r.request.correlationID, body⟩ ∧
    entry.acked tag = true

structure Places (s : State Body) (i : Nat) (r : Serving Body) : Prop where
  locks : r.phase.locks = true → s.mu = some i
  publishing : ∀ {e tag body}, r.phase = .publishing e tag body →
    ∃ entry, s.entries[e]? = some entry ∧ tag = entry.nextPublishSeqNo
  waiting : ∀ {e tag}, r.phase = .waiting e tag → r.reply = some (e, tag)
  sent : ∀ {e tag}, r.reply = some (e, tag) →
    ∃ entry body, s.entries[e]? = some entry ∧ tag < entry.nextPublishSeqNo ∧
      entry.sent tag = some ⟨r.request.replyTo, r.request.correlationID, body⟩
  confirmed : r.phase = .confirmed → s.Confirmed r

structure Placed (s : State Body) : Prop where
  entries : ∀ {e : Nat} {entry}, s.entries[e]? = some entry → entry.Sound
  requests : ∀ {i : Nat} {r}, s.requests[i]? = some r → s.Places i r

theorem placed_init : (init : State Body).Placed where
  entries := by
    intro e entry h
    contradiction
  requests := by
    intro i r h
    contradiction

def Grows (s s' : State Body) : Prop :=
  ∀ {e : Nat} {entry}, s.entries[e]? = some entry →
    ∃ entry', s'.entries[e]? = some entry' ∧ entry.Grows entry'

variable {cfg : Config} {s s' t : State Body} {i : Nat} {r r' : Serving Body}

theorem grows_of_eq (h : s'.entries = s.entries) : s.Grows s' := by
  intro e entry hentry
  exact ⟨entry, h ▸ hentry, .refl entry⟩

variable {e : Nat} {entry entry' : Entry Body}

theorem grows_set (hentry : s.entries[e]? = some entry)
    (hentries : s'.entries = s.entries.set e entry') (hgrows : entry.Grows entry')
    : s.Grows s' := by
  intro x entry₁ hx
  rw [hentries]
  by_cases heq : x = e
  . subst heq
    rw [hentry, some.injEq] at hx
    exact ⟨entry', getElem?_set_of_eq_some hentry entry', hx ▸ hgrows⟩
  . exact ⟨entry₁, (List.getElem?_set_ne (Ne.symm heq)).trans hx, .refl entry₁⟩

theorem grows_concat (hentries : s'.entries = s.entries ++ [entry]) : s.Grows s' := by
  intro x entry₁ hx
  rw [hentries]
  exact ⟨entry₁, getElem?_concat_of_eq_some hx _, .refl entry₁⟩

theorem Places.sent_of_grows (h : s.Places i r) (hgrows : s.Grows s')
    (hreply : r.reply = some (e, tag))
    : ∃ entry body, s'.entries[e]? = some entry ∧ tag < entry.nextPublishSeqNo ∧
        entry.sent tag = some ⟨r.request.replyTo, r.request.correlationID, body⟩ := by
  have ⟨entry, body, hentry, htag, hsent⟩ := h.sent hreply
  have ⟨entry', hentry', hle⟩ := hgrows hentry
  exact ⟨entry', body, hentry', lt_of_lt_of_le htag hle.seqNo, (hle.sent htag).trans hsent⟩

theorem Places.confirmed_of_grows (h : s.Places i r) (hgrows : s.Grows s') (hc : s.Confirmed r)
    : s'.Confirmed r := by
  have ⟨e, tag, entry, body, hreply, hentry, hsent, hacked⟩ := hc
  have ⟨entry₁, _, hentry₁, htag, _⟩ := h.sent hreply
  rw [hentry] at hentry₁
  cases hentry₁
  have ⟨entry', hentry', hle⟩ := hgrows hentry
  exact ⟨e, tag, entry', body, hreply, hentry', (hle.sent htag).trans hsent, hle.acked htag hacked⟩

theorem Places.grows (h : s.Places i r) (hgrows : s.Grows s')
    (hmu : r.phase.locks = true → s.mu = some i → s'.mu = some i)
    (hseq : r.phase.locks = true → s.mu = some i → ∀ {e : Nat} {entry}, s.entries[e]? = some entry →
      ∃ entry', s'.entries[e]? = some entry' ∧ entry'.nextPublishSeqNo = entry.nextPublishSeqNo)
    : s'.Places i r where
  locks := fun hlocks => hmu hlocks (h.locks hlocks)
  publishing := by
    intro e tag body hphase
    have hlocks : r.phase.locks = true := by rw [hphase]; rfl
    have ⟨entry, hentry, htag⟩ := h.publishing hphase
    have ⟨entry', hentry', hsame⟩ := hseq hlocks (h.locks hlocks) hentry
    exact ⟨entry', hentry', htag.trans hsame.symm⟩
  waiting := h.waiting
  sent := h.sent_of_grows hgrows
  confirmed := fun hphase => h.confirmed_of_grows hgrows (h.confirmed hphase)

theorem Places.goto (h : s.Places i r) (hgrows : s.Grows s') (hrequest : r'.request = r.request)
    (hreply : r'.reply = r.reply) (hfree : r'.phase.free = true)
    (hlocks : r'.phase.locks = true → s'.mu = some i) : s'.Places i r' where
  locks := hlocks
  publishing := by
    intro e tag body hphase
    rw [hphase] at hfree
    contradiction
  waiting := by
    intro e tag hphase
    rw [hphase] at hfree
    contradiction
  sent := by
    rw [hrequest, hreply]
    exact h.sent_of_grows hgrows
  confirmed := by
    intro hphase
    rw [hphase] at hfree
    contradiction

theorem Places.plain (h : s.Places i r) (hgrows : s.Grows s') (hrequest : r'.request = r.request)
    (hreply : r'.reply = r.reply) (hplain : r'.phase.plain = true) : s'.Places i r' := by
  refine h.goto hgrows hrequest hreply ?_ ?_
  . cases hphase : r'.phase <;> rw [hphase] at hplain <;> first | rfl | contradiction
  . intro hlocks
    cases hphase : r'.phase <;> rw [hphase] at hplain hlocks <;> contradiction

def SameSeqNos (s s' : State Body) : Prop :=
  ∀ {e : Nat} {entry}, s.entries[e]? = some entry →
    ∃ entry', s'.entries[e]? = some entry' ∧ entry'.nextPublishSeqNo = entry.nextPublishSeqNo

theorem sameSeqNos_of_eq (h : s'.entries = s.entries) : s.SameSeqNos s' := by
  intro e entry hentry
  exact ⟨entry, h ▸ hentry, rfl⟩

theorem sameSeqNos_set (hentry : s.entries[e]? = some entry)
    (hentries : s'.entries = s.entries.set e entry')
    (hseq : entry'.nextPublishSeqNo = entry.nextPublishSeqNo) : s.SameSeqNos s' := by
  intro x entry₁ hx
  rw [hentries]
  by_cases heq : x = e
  . subst heq
    rw [hentry, some.injEq] at hx
    exact ⟨entry', getElem?_set_of_eq_some hentry entry', hx ▸ hseq⟩
  . exact ⟨entry₁, (List.getElem?_set_ne (Ne.symm heq)).trans hx, rfl⟩

theorem Placed.sound_set (h : s.Placed) (hsound : entry'.Sound) {x : Nat}
    (hx : (s.entries.set e entry')[x]? = some entry) : entry.Sound := by
  rcases getElem?_set_eq_some hx with ⟨_, heq⟩ | ⟨_, hold⟩
  . exact heq ▸ hsound
  . exact h.entries hold

theorem Placed.setServing (h : s.Placed) (hrequests : s'.requests = s.requests.set i r')
    (hentries : ∀ {e : Nat} {entry}, s'.entries[e]? = some entry → entry.Sound)
    (hgrows : s.Grows s') (hmu : ∀ {j}, j ≠ i → s.mu = some j → s'.mu = some j ∧ s.SameSeqNos s')
    (hplaces : s'.Places i r') : s.Grows s' ∧ s'.Placed := by
  refine ⟨hgrows, hentries, ?_⟩
  intro j r₁ hj
  rw [hrequests] at hj
  rcases getElem?_set_eq_some hj with ⟨heq, hr⟩ | ⟨hne, hold⟩
  . subst heq hr
    exact hplaces
  . exact (h.requests hold).grows hgrows (fun _ hj => (hmu hne hj).1) (fun _ hj => (hmu hne hj).2)

theorem Placed.frame (h : s.Placed) (hrequests : s'.requests = s.requests)
    (hentries : ∀ {e : Nat} {entry}, s'.entries[e]? = some entry → entry.Sound)
    (hgrows : s.Grows s') (hmu : s'.mu = s.mu) (hseq : s.SameSeqNos s')
    : s.Grows s' ∧ s'.Placed := by
  refine ⟨hgrows, hentries, ?_⟩
  intro j r hj
  rw [hrequests] at hj
  exact (h.requests hj).grows hgrows (fun _ hj => hmu.trans hj) (fun _ _ => hseq)

theorem Placed.only (h : s.Placed) (hrequests : s'.requests = s.requests.set i r')
    (hentries : s'.entries = s.entries) (hmu : s'.mu = s.mu) (hplaces : s'.Places i r')
    : s.Grows s' ∧ s'.Placed := by
  refine h.setServing hrequests ?_ (grows_of_eq hentries) ?_ hplaces
  . rw [hentries]
    exact h.entries
  . intro j hne hj
    exact ⟨hmu.trans hj, sameSeqNos_of_eq hentries⟩

theorem Placed.locked (h : s.Placed) (hr : s.requests[i]? = some r) (hlocks : r.phase.locks = true)
    (hrequests : s'.requests = s.requests.set i r')
    (hentries : ∀ {e : Nat} {entry}, s'.entries[e]? = some entry → entry.Sound)
    (hgrows : s.Grows s') (hplaces : s'.Places i r') : s.Grows s' ∧ s'.Placed := by
  refine h.setServing hrequests hentries hgrows ?_ hplaces
  intro j hne hj
  rw [(h.requests hr).locks hlocks, some.injEq] at hj
  exact absurd hj.symm hne

theorem Placed.wait (h : s.Placed) (hr : s.requests[i]? = some r)
    (hphase : r.phase = .waiting e tag) (hentry : s.entries[e]? = some entry)
    {w : Publisher.WaitStep} {timeout : Int}
    (htrack : entry.track (w.action tag timeout) = some entry')
    : entry'.Sound ∧ entry.Grows entry' := by
  have ha : entry.Tracks (w.action tag timeout) := by
    cases w with
    | begin =>
      have hplaces := h.requests hr
      have ⟨entry₁, _, hentry₁, htag, _⟩ := hplaces.sent (hplaces.waiting hphase)
      rw [hentry] at hentry₁
      cases hentry₁
      exact htag
    | _ => trivial
  exact ⟨(h.entries hentry).track htrack ha, Entry.grows_track htrack ha⟩

theorem placed_of_handlerMove (h : s.Placed) (hr : s.requests[i]? = some r) {a : HandlerAction Body}
    (hmove : s.HandlerMove cfg i r a s') : s.Grows s' ∧ s'.Placed := by
  have hplaces := h.requests hr
  cases hmove with
  | pass a p hbefore hplain =>
    exact h.only rfl rfl rfl (hplaces.plain (grows_of_eq rfl) rfl rfl hplain)
  | panic d hphase | decide | verdict | returnNil =>
    exact h.only rfl rfl rfl (hplaces.goto (grows_of_eq rfl) rfl rfl rfl nofun)
  | lock body hphase hmu =>
    refine h.setServing rfl h.entries (grows_of_eq rfl) ?_
      (hplaces.goto (grows_of_eq rfl) rfl rfl rfl (fun _ => rfl))
    intro j _ hj
    rw [hmu] at hj
    contradiction
  | openFails body hphase =>
    exact h.locked hr (by rw [hphase]; rfl) rfl h.entries (grows_of_eq rfl)
      (hplaces.plain (grows_of_eq rfl) rfl rfl rfl)
  | opened body hphase =>
    have hlocks : r.phase.locks = true := by rw [hphase]; rfl
    refine h.locked hr hlocks rfl ?_ (grows_concat rfl)
      (hplaces.goto (grows_concat rfl) rfl rfl rfl (fun _ => hplaces.locks hlocks))
    intro e entry hentry
    cases getElem?_concat_eq_some hentry with
    | inl hnew => exact hnew.2 ▸ Entry.sound_new
    | inr hold => exact h.entries hold
  | ensured opens e body hphase =>
    have hlocks : r.phase.locks = true := by rw [hphase]; rfl
    exact h.only rfl rfl rfl
      (hplaces.goto (grows_of_eq rfl) rfl rfl rfl (fun _ => hplaces.locks hlocks))
  | registerFails e body entry entry' hphase hentry htrack =>
    have hgrows : entry.Grows entry' := Entry.grows_track htrack rfl
    exact h.locked hr (by rw [hphase]; rfl) rfl (h.sound_set ((h.entries hentry).track htrack rfl))
      (grows_set hentry rfl hgrows) (hplaces.plain (grows_set hentry rfl hgrows) rfl rfl rfl)
  | registered e body entry entry' hphase hentry htrack =>
    have hlocks : r.phase.locks = true := by rw [hphase]; rfl
    have hgrows : entry.Grows entry' := Entry.grows_track htrack rfl
    refine h.locked hr hlocks rfl (h.sound_set ((h.entries hentry).track htrack rfl))
      (grows_set hentry rfl hgrows) ?_
    refine ⟨fun _ => hplaces.locks hlocks, ?_, nofun, ?_, nofun⟩
    . intro e' tag body' heq
      have ⟨he, htag, _⟩ := Phase.publishing.inj heq
      subst he htag
      exact ⟨entry', getElem?_set_of_eq_some hentry entry', (Entry.seqNo_track htrack).symm⟩
    . exact hplaces.sent_of_grows (grows_set hentry rfl hgrows)
  | published e tag body entry hphase hentry =>
    have ⟨entry₁, hentry₁, htag⟩ := hplaces.publishing hphase
    rw [hentry] at hentry₁
    cases hentry₁
    refine h.locked hr (by rw [hphase]; rfl) rfl (h.sound_set ((h.entries hentry).send _ _))
      (grows_set hentry rfl (Entry.grows_send htag _)) ?_
    refine ⟨nofun, nofun, ?_, ?_, nofun⟩
    . intro e' tag' heq
      have ⟨he, htag⟩ := Phase.waiting.inj heq
      rw [he, htag]
    . intro e' tag' heq
      have ⟨he, htag'⟩ := Prod.mk.inj (some.inj heq)
      subst he htag'
      refine ⟨_, body, getElem?_set_of_eq_some hentry _, ?_, Function.update_self _ _ _⟩
      exact htag ▸ lt_succ_self _
  | publishFails e tag body entry entry' hphase hentry htrack =>
    have hgrows : entry.Grows entry' := Entry.grows_track htrack trivial
    exact h.locked hr (by rw [hphase]; rfl) rfl
      (h.sound_set ((h.entries hentry).track htrack trivial)) (grows_set hentry rfl hgrows)
      (hplaces.plain (grows_set hentry rfl hgrows) rfl rfl rfl)
  | waits e tag w entry entry' hphase hentry htrack =>
    have ⟨hsound, hgrows⟩ := h.wait hr hphase hentry htrack
    exact h.frame rfl (h.sound_set hsound) (grows_set hentry rfl hgrows) rfl
      (sameSeqNos_set hentry rfl (Entry.seqNo_track htrack))
  | confirmed e tag x w entry entry' rest hphase hentry htrack hresult =>
    have ⟨hsound, hgrows⟩ := h.wait hr hphase hentry htrack
    have hgrows' : s.Grows ((s.setEntry e entry').goto i r .confirmed) :=
      grows_set hentry rfl hgrows
    refine h.setServing rfl (h.sound_set hsound) hgrows' ?_ ?_
    . intro j _ hj
      exact ⟨hj, sameSeqNos_set hentry rfl (Entry.seqNo_track htrack)⟩
    . refine ⟨nofun, nofun, nofun, hplaces.sent_of_grows hgrows', ?_⟩
      intro _
      have hreply := hplaces.waiting hphase
      have ⟨entry₁, body, hentry₁, _, hsent⟩ := hplaces.sent_of_grows hgrows' hreply
      have hself : (s.entries.set e entry')[e]? = some entry' :=
        getElem?_set_of_eq_some hentry entry'
      have heq : entry' = entry₁ := some.inj (hself.symm.trans hentry₁)
      exact ⟨e, tag, entry₁, body, hreply, hentry₁, hsent,
        heq ▸ (h.entries hentry).acked_of_result htrack hresult⟩
  | unconfirmed e tag w entry entry' hphase hentry htrack =>
    have ⟨hsound, hgrows⟩ := h.wait hr hphase hentry htrack
    refine h.setServing rfl (h.sound_set hsound) (grows_set hentry rfl hgrows) ?_
      (hplaces.plain (grows_set hentry rfl hgrows) rfl rfl rfl)
    intro j _ hj
    exact ⟨hj, sameSeqNos_set hentry rfl (Entry.seqNo_track htrack)⟩

theorem placed_step (h : s.Placed) {a : Action Body} (hstep : s.step cfg a = some s')
    : s.Grows s' ∧ s'.Placed := by
  cases step_move hstep with
  | deliver request chanDone ctx =>
    refine ⟨grows_of_eq rfl, h.entries, ?_⟩
    intro i r hi
    cases getElem?_concat_eq_some hi with
    | inl hnew =>
      rw [hnew.2]
      exact ⟨nofun, nofun, nofun, nofun, nofun⟩
    | inr hold =>
      exact (h.requests hold).grows (grows_of_eq rfl) (fun _ => id) (fun _ _ => sameSeqNos_of_eq rfl)
  | dispatch i r a d hr =>
    have hplaces := h.requests hr
    exact h.only rfl rfl rfl
      ⟨hplaces.locks, hplaces.publishing, hplaces.waiting, hplaces.sent, hplaces.confirmed⟩
  | handler i r a _ hr _ hmove => exact placed_of_handlerMove h hr hmove
  | track a e b entry entry' hentry htrack hframe =>
    have ha : entry.Tracks b := by
      rcases hframe with hb | ⟨_, _, hb⟩ | ⟨_, _, hb⟩ <;> rw [hb] <;> trivial
    exact h.frame rfl (h.sound_set ((h.entries hentry).track htrack ha))
      (grows_set hentry rfl (Entry.grows_track htrack ha)) rfl
      (sameSeqNos_set hentry rfl (Entry.seqNo_track htrack))
  | closeCh e entry hentry =>
    have hsound : { entry with closeCh := true }.Sound :=
      ⟨(h.entries hentry).models, (h.entries hentry).acked, (h.entries hentry).waits⟩
    have hseq : { entry with closeCh := true }.nextPublishSeqNo = entry.nextPublishSeqNo := rfl
    have hgrows : entry.Grows { entry with closeCh := true } :=
      ⟨le_refl _, fun _ => rfl, fun _ => id⟩
    exact h.frame rfl (h.sound_set hsound)
      (grows_set hentry rfl hgrows) rfl
      (sameSeqNos_set hentry rfl hseq)
  | closePublisher =>
    exact h.frame rfl h.entries (grows_of_eq rfl) rfl (sameSeqNos_of_eq rfl)

end State
end Replier
