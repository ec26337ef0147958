import Neroshop.Converter.Convert
import Neroshop.Lib.Runs

/-!
# Converter — the static buffer

What the calls of `convert_xmr` leave in `json_string`, over every sequence
of calls and every behaviour of the services.

* `rejects`: an answer that makes a call throw, and `Call.leftBehind` what this
  leaves in the buffer.
* `converter_clean_iff`: each request starts on an empty buffer, and each parse is
  of the body of its own request, exactly when no call but the last leaves
  something behind.
-/

namespace Neroshop.Converter

open Lib.CStr Lib.EState Lib.Runs
open Lib.JsonDoc (JsonError)

variable (lib : Library) (net : Net)

/-! ## One request block -/

/-- The answer is parsed, and it does not parse or lacks the fields. -/
def rejects {α : Type} (fields : Doc → Except JsonError α) (r : Response) : Bool :=
  r.ok && match lib.parse r.body with
    | none => true
    | some j =>
        match fields j with
        | .error _ => true
        | .ok _ => false

/-- What is read from an answer that is not rejected. -/
def answer {α : Type} (fields : Doc → Except JsonError α) (r : Response) : Option α :=
  if r.ok then (lib.parse r.body).bind fun j => (fields j).toOption else none

/-- Every request started on an empty buffer, and every parse was given the
body of its request. -/
def Static.Clean (s : Static) : Prop :=
  (∀ start ∈ s.starts, start = []) ∧ ∀ p ∈ s.parses, p.2 = p.1

instance (s : Static) : Decidable s.Clean :=
  inferInstanceAs (Decidable (_ ∧ _))

/-- A record stays clean when one more request starts on an empty buffer. -/
theorem Static.Clean.record {starts : List Bytes} {parses ps : List (Bytes × Bytes)}
    (h : Static.Clean ⟨[], starts, parses⟩) (hps : ∀ p ∈ ps, p.2 = p.1) (b : Bytes) :
    Static.Clean ⟨b, starts ++ [[]], parses ++ ps⟩ := by
  constructor
  · intro start hmem
    rcases List.mem_append.mp hmem with hmem | hmem
    · exact h.1 start hmem
    · exact List.mem_singleton.mp hmem
  · intro p hmem
    rcases List.mem_append.mp hmem with hmem | hmem
    · exact h.2 p hmem
    · exact hps p hmem

/-- **A block on an empty buffer**: it stops at an answer that it rejects,
with the body left in the buffer, or it goes on with the buffer cleared. A
clean record stays clean. -/
theorem fetch_empty {α : Type} (url : Bytes) (fields : Doc → Except JsonError α)
    {s : Static} (hempty : s.jsonString = []) :
    if rejects lib fields (net url) then
      ∃ e s', fetch lib net url fields s = .error e s'
        ∧ s'.jsonString = (net url).body ∧ (s.Clean → s'.Clean)
    else
      ∃ s', fetch lib net url fields s = .ok (answer lib fields (net url)) s'
        ∧ s'.jsonString = [] ∧ (s.Clean → s'.Clean) := by
  obtain ⟨buffer, starts, parses⟩ := s
  obtain rfl : buffer = [] := hempty
  let own := ((net url).body, (net url).body)
  cases hok : (net url).ok with
  | false =>
      simp only [rejects, hok, Bool.false_and, Bool.false_eq_true, if_false]
      exact ⟨⟨[], starts ++ [[]], parses ++ []⟩,
        by simp [fetch, request, clear, answer, hok], rfl,
        fun h => h.record (by simp) []⟩
  | true =>
      cases hparse : lib.parse (net url).body with
      | none =>
          simp only [rejects, hok, hparse, Bool.true_and, if_true]
          exact ⟨.parse, ⟨(net url).body, starts ++ [[]], parses ++ [own]⟩,
            by simp [fetch, request, getJson, parseJson, own, hok, hparse], rfl,
            fun h => h.record (by simp [own]) _⟩
      | some j =>
          cases hfields : fields j with
          | error e =>
              simp only [rejects, hok, hparse, hfields, Bool.true_and, if_true]
              exact ⟨e, ⟨(net url).body, starts ++ [[]], parses ++ [own]⟩,
                by simp [fetch, request, getJson, parseJson, own, hok, hparse, hfields],
                rfl, fun h => h.record (by simp [own]) _⟩
          | ok a =>
              simp only [rejects, hok, hparse, hfields, Bool.true_and,
                Bool.false_eq_true, if_false]
              exact ⟨⟨[], starts ++ [[]], parses ++ [own]⟩,
                by simp [fetch, request, getJson, parseJson, clear, answer, own, hok,
                  hparse, hfields, Except.toOption],
                rfl, fun h => h.record (by simp [own]) _⟩

/-- The requests of a call come behind those before it. -/
def Grows (s s' : Static) : Prop := s.starts <+: s'.starts

theorem Grows.refl (s : Static) : Grows s s := List.prefix_refl _

theorem Grows.trans (s t u : Static) (h : Grows s t) (h' : Grows t u) : Grows s u :=
  List.IsPrefix.trans h h'

theorem fetch_starts {α : Type} (url : Bytes) (fields : Doc → Except JsonError α)
    (s : Static) :
    (after (fetch lib net url fields) s).starts = s.starts ++ [s.jsonString] := by
  cases hok : (net url).ok with
  | false => simp [after, fetch, request, clear, hok]
  | true =>
      cases hparse : lib.parse (s.jsonString ++ (net url).body) with
      | none => simp [after, fetch, request, getJson, parseJson, hok, hparse]
      | some j =>
          cases hfields : fields j <;>
            simp [after, fetch, request, getJson, parseJson, clear, hok, hparse,
              hfields]

theorem keeps_fetch {α : Type} (url : Bytes) (fields : Doc → Except JsonError α) :
    Keeps Grows (fetch lib net url fields) := by
  intro s
  rw [Grows, fetch_starts]
  exact List.prefix_append _ _

theorem keeps_collect (rate : ℚ) (srcs : List Source) :
    Keeps Grows (collect lib net rate srcs) := by
  induction srcs with
  | nil => exact Keeps.pure Grows.refl []
  | cons source srcs ih =>
      apply (keeps_fetch lib net _ _).bind Grows.trans
      intro offers
      apply ih.bind Grows.trans
      intro prices
      exact Keeps.pure Grows.refl _

/-! ## One call -/

/-- The body of the first answer that makes a call throw. -/
def firstRejected : List Source → Bytes
  | [] => []
  | source :: srcs =>
      if rejects lib source.offers (net source.url) then (net source.url).body
      else firstRejected srcs

/-- A call of `convert_xmr`, with the answers of the services. -/
structure Call where
  net : Net
  quantity : ℚ
  currency : Bytes
  toXmr : Bool

/-- The body of the first answer that a call rejects; empty, too, when it
rejects none. -/
def Call.leftBehind (c : Call) : Bytes :=
  if rejects lib (rates lib) (c.net ratesUrl) then (c.net ratesUrl).body
  else if isSupportedCurrency (lib.lower c.currency) && 0 ≤ c.quantity then
    firstRejected lib c.net (sources lib (lib.lower c.currency))
  else []

/-- The static state after a call, an exception included. -/
def step (s : Static) (c : Call) : Static :=
  after (convertXmr lib c.net c.quantity c.currency c.toXmr) s

theorem collect_empty (rate : ℚ) (srcs : List Source) {s : Static}
    (hempty : s.jsonString = []) (hclean : s.Clean) :
    (after (collect lib net rate srcs) s).Clean
      ∧ (after (collect lib net rate srcs) s).jsonString
        = firstRejected lib net srcs := by
  induction srcs generalizing s with
  | nil => exact ⟨hclean, hempty⟩
  | cons source srcs ih =>
      have hfetch := fetch_empty lib net source.url source.offers hempty
      rw [collect, firstRejected]
      by_cases hrej : rejects lib source.offers (net source.url) = true
      · rw [if_pos hrej] at hfetch ⊢
        obtain ⟨e, s', hs', hbody, hclean'⟩ := hfetch
        rw [after_bind_error hs']
        exact ⟨hclean' hclean, hbody⟩
      · rw [if_neg hrej] at hfetch ⊢
        obtain ⟨s', hs', hempty', hclean'⟩ := hfetch
        rw [after_bind_ok hs', after_bind_pure]
        exact ih hempty' (hclean' hclean)

/-- **A call on an empty buffer** keeps its record clean, and leaves the
body of the first answer it rejects. -/
theorem step_empty (c : Call) {s : Static} (hempty : s.jsonString = [])
    (hclean : s.Clean) :
    (step lib s c).Clean ∧ (step lib s c).jsonString = c.leftBehind lib := by
  have hfetch := fetch_empty lib c.net ratesUrl (rates lib) hempty
  rw [step, convertXmr, Call.leftBehind]
  by_cases hrej : rejects lib (rates lib) (c.net ratesUrl) = true
  · rw [if_pos hrej] at hfetch ⊢
    obtain ⟨e, s', hs', hbody, hclean'⟩ := hfetch
    rw [after_bind_error hs']
    exact ⟨hclean' hclean, hbody⟩
  · rw [if_neg hrej] at hfetch ⊢
    obtain ⟨s', hs', hempty', hclean'⟩ := hfetch
    rw [after_bind_ok hs']
    split
    · rw [after_bind_pure]
      exact collect_empty lib c.net _ _ hempty' (hclean' hclean)
    · exact ⟨hclean' hclean, hempty'⟩

theorem step_starts (c : Call) (s : Static) :
    s.starts ++ [s.jsonString] <+: (step lib s c).starts := by
  rw [step, convertXmr]
  have hfetch := fetch_starts lib c.net ratesUrl (rates lib) s
  cases h : fetch lib c.net ratesUrl (rates lib) s with
  | error e s' =>
      rw [after_error h] at hfetch
      rw [after_bind_error h]
      exact hfetch ▸ List.prefix_refl _
  | ok a s' =>
      rw [after_ok h] at hfetch
      rw [after_bind_ok h, ← hfetch]
      refine Keeps.ite (R := Grows) ?_ (Keeps.pure Grows.refl _) s'
      apply (keeps_collect lib c.net _ _).bind Grows.trans
      intro prices
      exact Keeps.pure Grows.refl _

/-! ## Every sequence of calls -/

theorem run_starts (calls : List Call) (s : Static) :
    s.starts <+: (run (step lib) s calls).starts := by
  have hstep : ∀ t c, s.starts <+: t.starts → s.starts <+: (step lib t c).starts := by
    intro t c h
    have hcall : t.starts <+: (step lib t c).starts :=
      (List.prefix_append _ _).trans (step_starts lib c t)
    exact h.trans hcall
  exact run_inv hstep (List.prefix_refl _) calls

theorem run_clean_iff {s : Static} (hempty : s.jsonString = []) (hclean : s.Clean)
    (calls : List Call) :
    (run (step lib) s calls).Clean
      ↔ ∀ c ∈ calls.dropLast, c.leftBehind lib = [] := by
  induction calls generalizing s with
  | nil => simpa using hclean
  | cons c calls ih =>
      obtain ⟨hclean', hleft⟩ := step_empty lib c hempty hclean
      cases calls with
      | nil => simpa using hclean'
      | cons c' calls =>
          rw [run_cons, List.dropLast_cons_cons, List.forall_mem_cons]
          by_cases hnone : c.leftBehind lib = []
          · rw [ih (hleft.trans hnone) hclean']
            constructor
            · intro h
              exact ⟨hnone, h⟩
            · intro h
              exact h.2
          · -- the next call starts its first request on what this one left
            have hmem : (step lib s c).jsonString
                ∈ (run (step lib) (step lib s c) (c' :: calls)).starts := by
              rw [run_cons]
              exact ((step_starts lib c' _).trans (run_starts lib calls _)).subset
                (by simp)
            constructor
            · intro h
              exact absurd (hleft.symm.trans (h.1 _ hmem)) hnone
            · intro h
              exact absurd h.1 hnone

/-- The buffer when the program starts. -/
def Static.start : Static := ⟨[], [], []⟩

/-- **The buffer**: in a sequence of calls, every request starts on an empty
buffer and every parse gets the body of its own request, exactly when no
call but the last rejects an answer with a non-empty body before it has
rejected another. -/
theorem converter_clean_iff (calls : List Call) :
    (run (step lib) .start calls).Clean
      ↔ ∀ c ∈ calls.dropLast, c.leftBehind lib = [] :=
  run_clean_iff lib rfl ⟨by simp [Static.start], by simp [Static.start]⟩ calls

/-- A parser that accepts nothing. -/
def noJson : Library := ⟨fun _ => none, id, id⟩

/-- After an answer that does not parse, the next call parses that answer
again, in front of its own. -/
theorem converter_poisoned :
    ¬ (run (step noJson) .start
        [⟨fun _ => ⟨ascii "<html>", true⟩, 1, ascii "usd", true⟩,
          ⟨fun _ => ⟨ascii "[]", true⟩, 1, ascii "usd", true⟩]).Clean := by
  decide

end Neroshop.Converter
