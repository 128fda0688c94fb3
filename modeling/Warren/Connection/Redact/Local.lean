import Mathlib.Data.List.TakeWhile
import Warren.Connection.Redact.Impl

/-!
The redaction of any text. No match of the expression begins inside of another one.
-/

namespace Redact

open Bytes (lit)
open List

variable {s userinfo scheme run post : Bytes} {b : UInt8}

def IsAMQP (scheme : Bytes) : Prop := scheme = lit "amqp" ∨ scheme = lit "amqps"

theorem schemeGroup_append (h : IsAMQP scheme) (rest : Bytes)
    : schemeGroup (scheme ++ lit "://" ++ rest) = some (scheme ++ lit "://") := by
  unfold schemeGroup
  cases h with
  | inl h =>
    subst h
    have hs : ¬lit "amqps://" <+: lit "amqp" ++ lit "://" ++ rest := by
      have hne : 's'.toUInt8 ≠ ':'.toUInt8 := by decide
      simp [lit, hne]
    rw [if_neg hs, if_pos ⟨rest, rfl⟩]
    rfl
  | inr h =>
    subst h
    rw [if_pos ⟨rest, rfl⟩]
    rfl

theorem amqpURIRe_append (h : IsAMQP scheme) (huserinfo : ∀ b ∈ userinfo, inUserinfo b = true)
    (rest : Bytes)
    : amqpURIRe ((scheme ++ lit "://" ++ userinfo ++ [at']) ++ rest)
        = some (scheme ++ lit "://***@", (scheme ++ lit "://" ++ userinfo ++ [at']).length) := by
  have hgroup := schemeGroup_append h (userinfo ++ at' :: rest)
  have hat : ¬inUserinfo at' = true := by decide
  simp only [append_assoc, singleton_append] at hgroup ⊢
  unfold amqpURIRe
  rw [hgroup]
  dsimp only
  rw [← append_assoc, drop_left, dropWhile_append_of_pos huserinfo,
    takeWhile_append_of_pos huserinfo, dropWhile_cons_of_neg hat,
    takeWhile_cons_of_neg hat]
  simp [lit]
  omega

theorem uri_append (h : IsAMQP scheme) (huserinfo : ∀ b ∈ userinfo, inUserinfo b = true)
    (rest : Bytes)
    : uri (scheme ++ lit "://" ++ userinfo ++ [at'] ++ rest)
        = scheme ++ lit "://***@" ++ uri rest := by
  apply ReplaceAll.replaceAll_match
  . simp
  . apply amqpURIRe_append h huserinfo

def uriOf (scheme run : Bytes) : Bytes := scheme ++ lit "://" ++ run ++ [at']

structure IsCredentials (scheme run : Bytes) : Prop where
  scheme : IsAMQP scheme
  run : ∀ b ∈ run, inUserinfo b = true

theorem IsAMQP.eq_cons (h : IsAMQP scheme) : ∃ tail, scheme = 97 :: tail ∧ 97 ∉ tail := by
  cases h with
  | inl h => exact ⟨lit "mqp", h, by decide⟩
  | inr h => exact ⟨lit "mqps", h, by decide⟩

theorem IsAMQP.dropWhile (h : IsAMQP scheme) (rest : Bytes)
    : (scheme ++ lit "://" ++ rest).dropWhile inUserinfo = lit "//" ++ rest := by
  cases h with
  | inl h => rw [h]; rfl
  | inr h => rw [h]; rfl

theorem IsAMQP.masked (h : IsAMQP scheme) : IsCredentials scheme (lit "***") :=
  ⟨h, all_eq_true.mp rfl⟩

theorem schemeGroup_eq_some {group : Bytes} (h : schemeGroup s = some group)
    : ∃ scheme, IsAMQP scheme ∧ group = scheme ++ lit "://" ∧ group <+: s := by
  unfold schemeGroup at h
  split at h
  next hs =>
    cases h
    exact ⟨lit "amqps", .inr rfl, rfl, hs⟩
  next =>
    have ⟨hs, heq⟩ := Option.ite_none_right_eq_some.mp h
    cases heq
    exact ⟨lit "amqp", .inl rfl, rfl, hs⟩

theorem amqpURIRe_eq_some {m : Bytes × Nat} (h : amqpURIRe s = some m)
    : ∃ scheme run post, IsCredentials scheme run ∧ s = uriOf scheme run ++ post := by
  unfold amqpURIRe at h
  split at h
  next => contradiction
  next group hgroup =>
    have ⟨scheme, hamqp, heq, rest, hrest⟩ := schemeGroup_eq_some hgroup
    rw [← hrest] at h
    dsimp only at h
    rw [drop_left] at h
    split at h
    next => contradiction
    next b post hdrop =>
      have ⟨hb, _⟩ := Option.ite_none_right_eq_some.mp h
      have happend := takeWhile_append_dropWhile (p := inUserinfo) (l := rest)
      rw [hdrop, hb] at happend
      refine ⟨scheme, rest.takeWhile inUserinfo, post, ⟨hamqp, fun _ => mem_takeWhile_imp⟩, ?_⟩
      rw [← hrest, heq, uriOf]
      simp only [append_assoc, singleton_append]
      rw [happend]

theorem amqpURIRe_uriOf (h : IsCredentials scheme run) (post : Bytes)
    : amqpURIRe (uriOf scheme run ++ post)
        = some (scheme ++ lit "://***@", (uriOf scheme run).length) := by
  apply amqpURIRe_append h.scheme h.run

theorem uri_skip (h : amqpURIRe (b :: s) = none) : uri (b :: s) = b :: uri s := by
  unfold uri
  rw [ReplaceAll.replaceAll, h]

theorem lit_masked : lit "://***@" = lit "://" ++ (lit "***" ++ [at']) := by
  decide

theorem uri_redact (h : IsCredentials scheme run) (s : Bytes)
    : uri (uriOf scheme run ++ s) = uriOf scheme (lit "***") ++ uri s := by
  unfold uriOf
  rw [uri_append h.scheme h.run, lit_masked]
  simp only [append_assoc]

theorem uri_induct {P : Bytes → Prop} (nil : P [])
    (skip : ∀ b s, amqpURIRe (b :: s) = none → P s → P (b :: s))
    (redact : ∀ scheme run s, IsCredentials scheme run → P s → P (uriOf scheme run ++ s))
    (s : Bytes) : P s := by
  induction hn : s.length using Nat.strong_induction_on generalizing s with
  | _ n ih =>
    cases s with
    | nil => apply nil
    | cons b s =>
      cases hmatch : amqpURIRe (b :: s) with
      | none =>
        apply skip b s hmatch
        apply ih s.length _ s rfl
        simp [← hn]
      | some m =>
        have ⟨scheme, run, post, hcred, hs⟩ := amqpURIRe_eq_some hmatch
        rw [hs] at hn ⊢
        apply redact scheme run post hcred
        apply ih post.length _ post rfl
        rw [← hn]
        simp [uriOf]
        omega

theorem eq_append_of_uri_run (hrun : ∀ b ∈ run, inUserinfo b = true)
    (h : uri s = run ++ at' :: post) : ∃ post', s = run ++ at' :: post' := by
  induction run generalizing s with
  | nil =>
    induction s using uri_induct with
    | nil => nomatch h
    | skip b s hnone =>
      rw [uri_skip hnone] at h
      exact ⟨s, by rw [(cons.inj h).1]; rfl⟩
    | redact scheme run s hcred =>
      have ⟨tail, hscheme, _⟩ := hcred.scheme.eq_cons
      rw [uri_redact hcred, hscheme] at h
      exact absurd (cons.inj h).1 (by decide)
  | cons c run ih =>
    induction s using uri_induct with
    | nil => contradiction
    | skip b s hnone =>
      rw [uri_skip hnone] at h
      have ⟨hb, htail⟩ := cons.inj h
      have ⟨post', hs⟩ := ih (fun b hb => hrun b (mem_cons_of_mem c hb)) htail
      exact ⟨post', by rw [hb, hs]; rfl⟩
    | redact scheme run' s hcred =>
      have hat : ¬inUserinfo at' = true := by decide
      have hdrop := congrArg (dropWhile inUserinfo) h
      rw [uri_redact hcred, uriOf, append_assoc, append_assoc, hcred.scheme.dropWhile,
        dropWhile_append_of_pos hrun, dropWhile_cons_of_neg hat] at hdrop
      exact absurd (cons.inj hdrop).1 (by decide)

theorem eq_append_of_uri {u : Bytes} (hu : 97 ∉ u) (hrun : ∀ b ∈ run, inUserinfo b = true)
    (h : uri s = u ++ (run ++ at' :: post)) : ∃ post', s = u ++ (run ++ at' :: post') := by
  induction u generalizing s with
  | nil => apply eq_append_of_uri_run hrun h
  | cons c u ih =>
    rw [mem_cons, not_or] at hu
    induction s using uri_induct with
    | nil => contradiction
    | skip b s hnone =>
      rw [uri_skip hnone] at h
      have ⟨hb, htail⟩ := cons.inj h
      have ⟨post', hs⟩ := ih hu.2 htail
      exact ⟨post', by rw [hb, hs]; rfl⟩
    | redact scheme run' s hcred =>
      have ⟨tail, hscheme, _⟩ := hcred.scheme.eq_cons
      rw [uri_redact hcred, hscheme] at h
      exact absurd (cons.inj h).1 hu.1

theorem amqpURIRe_cons_uri (h : amqpURIRe (b :: s) = none) : amqpURIRe (b :: uri s) = none := by
  cases hmatch : amqpURIRe (b :: uri s) with
  | none => rfl
  | some m =>
    have ⟨scheme, run, post, hcred, hs⟩ := amqpURIRe_eq_some hmatch
    have ⟨tail, hscheme, htail⟩ := hcred.scheme.eq_cons
    have hu : 97 ∉ tail ++ lit "://" := by
      rw [mem_append, not_or]
      exact ⟨htail, by decide⟩
    rw [uriOf, hscheme] at hs
    simp only [append_assoc, cons_append, nil_append, cons.injEq] at hs
    rw [← append_assoc] at hs
    have ⟨post', hs'⟩ := eq_append_of_uri hu hcred.run hs.2
    have hsome := amqpURIRe_uriOf hcred post'
    have heq : b :: s = uriOf scheme run ++ post' := by
      rw [uriOf, hscheme, hs', hs.1]
      simp
    rw [← heq, h] at hsome
    contradiction

theorem uri_uri (s : Bytes) : uri (uri s) = uri s := by
  induction s using uri_induct with
  | nil => rfl
  | skip b s hnone ih => rw [uri_skip hnone, uri_skip (amqpURIRe_cons_uri hnone), ih]
  | redact scheme run s hcred ih => rw [uri_redact hcred, uri_redact hcred.scheme.masked, ih]

theorem uriOf_inj {scheme' run' post' : Bytes} (h : IsCredentials scheme run)
    (h' : IsCredentials scheme' run') (heq : uriOf scheme run ++ post = uriOf scheme' run' ++ post')
    : run = run' := by
  have hmatch := amqpURIRe_uriOf h post
  rw [heq, amqpURIRe_uriOf h' post', Option.some.injEq, Prod.mk.injEq] at hmatch
  have hscheme := append_cancel_right hmatch.1
  have huri := append_inj_left heq hmatch.2.symm
  rw [hscheme] at huri
  exact append_cancel_left (append_cancel_right huri)

theorem run_of_uri (h : IsCredentials scheme run) (pre : Bytes)
    (hs : uri s = pre ++ uriOf scheme run ++ post) : run = lit "***" := by
  induction s using uri_induct generalizing pre with
  | nil =>
    have hlength := congrArg length hs
    simp [uriOf, uri, ReplaceAll.replaceAll] at hlength
  | skip b s hnone ih =>
    rw [uri_skip hnone] at hs
    cases pre with
    | nil =>
      have hmatch := amqpURIRe_uriOf h post
      rw [nil_append] at hs
      rw [← hs, amqpURIRe_cons_uri hnone] at hmatch
      contradiction
    | cons c pre => apply ih pre (cons.inj hs).2
  | redact scheme' run' s hcred ih =>
    rw [uri_redact hcred] at hs
    cases pre with
    | nil => apply (uriOf_inj hcred.scheme.masked h hs).symm
    | cons c pre =>
      obtain ⟨tail', hscheme', htail'⟩ := hcred.scheme.eq_cons
      obtain ⟨tail, hscheme, _⟩ := h.scheme.eq_cons
      have hno : 97 ∉ tail' ++ lit "://***@" := by
        rw [mem_append, not_or]
        exact ⟨htail', by decide⟩
      have hrest : tail' ++ lit "://***@" ++ uri s = pre ++ (uriOf scheme run ++ post) := by
        rw [uriOf, hscheme', append_assoc] at hs
        rw [lit_masked]
        simpa using (cons.inj hs).2
      rcases append_eq_append_iff.mp hrest with ⟨t, _, ht⟩ | ⟨t, hpre, ht⟩
      . apply ih t
        rw [ht, append_assoc]
      . cases t with
        | nil =>
          apply ih []
          simpa using ht.symm
        | cons d t =>
          rw [uriOf, hscheme] at ht
          rw [hpre, ← (cons.inj ht).1] at hno
          simp at hno

structure Piece where
  text : Bytes
  scheme : Bytes
  run : Bytes

namespace Piece

def original (p : Piece) : Bytes := p.text ++ uriOf p.scheme p.run

def redacted (p : Piece) : Bytes := p.text ++ uriOf p.scheme (lit "***")

end Piece

theorem exists_pieces (s : Bytes)
    : ∃ pieces : List Piece, ∃ tail, (∀ p ∈ pieces, IsCredentials p.scheme p.run)
        ∧ s = pieces.flatMap Piece.original ++ tail
        ∧ uri s = pieces.flatMap Piece.redacted ++ tail := by
  induction s using uri_induct with
  | nil => exact ⟨[], [], by simp, rfl, rfl⟩
  | skip b s hnone ih =>
    have ⟨pieces, tail, hcred, hs, huri⟩ := ih
    rw [uri_skip hnone, huri]
    cases pieces with
    | nil => exact ⟨[], b :: tail, by simp, by rw [hs]; rfl, rfl⟩
    | cons p pieces =>
      refine ⟨{ p with text := b :: p.text } :: pieces, tail, ?_, by rw [hs]; rfl, rfl⟩
      rw [forall_mem_cons] at hcred ⊢
      exact hcred
  | redact scheme run s hcred ih =>
    have ⟨pieces, tail, hpieces, hs, huri⟩ := ih
    refine ⟨⟨[], scheme, run⟩ :: pieces, tail, ?_, ?_, ?_⟩
    . rw [forall_mem_cons]
      exact ⟨hcred, hpieces⟩
    . rw [hs]
      simp [Piece.original]
    . rw [uri_redact hcred, huri]
      simp [Piece.redacted]

/--
The redaction of a text is the text with the run of every match replaced, and every match that is in
it has the replaced run.
-/
theorem uri_local (s : Bytes)
    : uri (uri s) = uri s
        ∧ (∀ pre scheme run post, IsAMQP scheme → (∀ b ∈ run, inUserinfo b = true) →
          uri s = pre ++ scheme ++ lit "://" ++ run ++ [at'] ++ post → run = lit "***")
        ∧ ∃ pieces : List Piece, ∃ tail, (∀ p ∈ pieces, IsCredentials p.scheme p.run)
          ∧ s = pieces.flatMap Piece.original ++ tail
          ∧ uri s = pieces.flatMap Piece.redacted ++ tail := by
  refine ⟨uri_uri s, ?_, exists_pieces s⟩
  intro pre scheme run post hscheme hrun hs
  have huri : uri s = pre ++ uriOf scheme run ++ post := by
    rw [hs, uriOf]
    simp
  apply run_of_uri ⟨hscheme, hrun⟩ pre huri

end Redact
