import Neroshop.Validator.Register

/-!
# Validator — the addresses that pass

The language of the pattern of `validate_email`, against addresses of dotted
words.

`acceptedEmail_wellFormed_iff`: an address that passes is well formed unless the
name in front of its `@` ends in a dot.
-/

namespace Neroshop.Validator

open Lib Lib.CStr Lib.Regex

/-! ## Dotted words -/

/-- `\w` -/
def WordChar (c : Byte) : Bool := isAlnum c || c == 95

/-- A non-empty run of letters, digits and underscores. -/
def Word (w : Bytes) : Prop := w ≠ [] ∧ ∀ c ∈ w, WordChar c

instance (w : Bytes) : Decidable (Word w) :=
  decidable_of_iff (w ≠ [] ∧ w.all WordChar) (and_congr_right' List.all_eq_true)

/-- At least `n` words, with single dots between them. -/
def Dotted (n : Nat) (s : Bytes) : Prop :=
  ∃ ws : List Bytes, n ≤ ws.length ∧ (∀ w ∈ ws, Word w) ∧ s = [46].intercalate ws

/-- One `@`, at least one word before it and at least two words after it. -/
def WellFormedEmail (s : Bytes) : Prop :=
  ∃ l d, s = l ++ 64 :: d ∧ 64 ∉ l ∧ 64 ∉ d ∧ Dotted 1 l ∧ Dotted 2 d

/-- A word with a dot behind it, in the place of the name. -/
def TrailingDot (s : Bytes) : Prop :=
  ∃ w d, Word w ∧ Dotted 2 d ∧ s = w ++ [46] ++ 64 :: d

theorem intercalate_cons (w : Bytes) (ws : List Bytes) :
    [46].intercalate (w :: ws) = w ++ (ws.map ([46] ++ ·)).flatten := by
  induction ws generalizing w with
  | nil => simp
  | cons v ws ih =>
      rw [List.intercalate_cons_cons, ih]
      simp

theorem Dotted.chars {n : Nat} {s : Bytes} (h : Dotted n s) :
    ∀ c ∈ s, WordChar c ∨ c = 46 := by
  rcases h with ⟨ws, -, hws, rfl⟩
  induction ws with
  | nil => simp
  | cons w ws ih =>
      rw [List.forall_mem_cons] at hws
      intro c hc
      cases ws with
      | nil =>
          rw [List.intercalate_singleton] at hc
          exact .inl (hws.1.2 c hc)
      | cons v ws =>
          rw [List.intercalate_cons_cons, List.mem_append, List.mem_append,
            List.mem_singleton] at hc
          rcases hc with (hw | hdot) | hrest
          · exact .inl (hws.1.2 c hw)
          · exact .inr hdot
          · exact ih hws.2 c hrest

theorem Dotted.at_notMem {n : Nat} {s : Bytes} (h : Dotted n s) : 64 ∉ s := by
  intro hat
  rcases h.chars 64 hat with hword | hdot
  · exact absurd hword (by decide)
  · exact absurd hdot (by decide)

/-- The last character is one of a word. -/
theorem Dotted.ends {n : Nat} {s : Bytes} (h : Dotted (n + 1) s) :
    ∃ t c, s = t ++ [c] ∧ WordChar c := by
  rcases h with ⟨ws, hlen, hws, rfl⟩
  induction ws generalizing n with
  | nil => exact absurd hlen (Nat.not_succ_le_zero n)
  | cons w ws ih =>
      rw [List.forall_mem_cons] at hws
      cases ws with
      | nil =>
          rcases List.eq_nil_or_concat w with rfl | ⟨t, c, rfl⟩
          · exact absurd rfl hws.1.1
          · refine ⟨t, c, ?_, hws.1.2 c ?_⟩ <;> simp
      | cons v ws =>
          rcases ih (n := 0) (by simp) hws.2 with ⟨t, c, heq, hc⟩
          refine ⟨w ++ [46] ++ t, c, ?_, hc⟩
          rw [List.intercalate_cons_cons, heq, List.append_assoc (w ++ [46])]

theorem Word.dotted {w : Bytes} (h : Word w) : Dotted 1 w :=
  ⟨[w], Nat.le_refl 1, by simpa using h, by simp⟩

theorem Word.dotted_pair {v w : Bytes} (hv : Word v) (hw : Word w) :
    Dotted 1 (v ++ [46] ++ w) :=
  ⟨[v, w], by simp, by simpa using ⟨hv, hw⟩, by simp⟩

/-! ## The pattern -/

/-- The texts that `(\w+)(\.|_)?(\w*)@(\w+)(\.(\w+))+` takes. -/
def Addressed (s : Bytes) : Prop :=
  ∃ a sep b d, Word a ∧ (sep = [46] ∨ sep = [95] ∨ sep = []) ∧ (∀ c ∈ b, WordChar c) ∧
    Dotted 2 d ∧ s = a ++ sep ++ b ++ 64 :: d

theorem dotted_succ {n : Nat} {s : Bytes} :
    Dotted (n + 1) s ↔ ∃ (w : Bytes) (ws : List Bytes), Word w ∧ (∀ v ∈ ws, Word v) ∧
      n ≤ ws.length ∧ s = w ++ (ws.map ([46] ++ ·)).flatten := by
  constructor
  · intro h
    rcases h with ⟨ws, hlen, hws, rfl⟩
    cases ws with
    | nil => exact absurd hlen (Nat.not_succ_le_zero n)
    | cons w ws =>
        rw [List.forall_mem_cons] at hws
        exact ⟨w, ws, hws.1, hws.2, Nat.le_of_succ_le_succ hlen, intercalate_cons w ws⟩
  · intro h
    rcases h with ⟨w, ws, hw, hws, hlen, rfl⟩
    exact ⟨w :: ws, Nat.succ_le_succ hlen, List.forall_mem_cons.mpr ⟨hw, hws⟩,
      (intercalate_cons w ws).symm⟩

theorem takes_word (whole : Nat) : Takes whole word.plus Word :=
  Takes.plus_one _

theorem takes_char (whole : Nat) (b : Byte) : Takes whole (char b) (· = [b]) := by
  apply (Takes.one (· == b)).congr
  intro u
  simp

/-- `(\.(\w+))+` -/
theorem takes_groups (whole : Nat) :
    Takes whole (Regex.seq (char 46) word.plus).plus fun s =>
      ∃ ws : List Bytes, (∀ w ∈ ws, Word w) ∧ 1 ≤ ws.length ∧
        s = (ws.map ([46] ++ ·)).flatten := by
  apply ((takes_char whole 46).seq (takes_word whole)).plus.congr
  intro s
  constructor
  · intro h
    rcases h with ⟨us, hne, hus, rfl⟩
    have hws : ∃ ws : List Bytes, (∀ w ∈ ws, Word w) ∧ us = ws.map ([46] ++ ·) := by
      clear hne
      induction us with
      | nil => exact ⟨[], by simp, rfl⟩
      | cons u us ih =>
          rw [List.forall_mem_cons] at hus
          rcases hus.1 with ⟨_, w, rfl, hw, rfl⟩
          rcases ih hus.2 with ⟨ws, hws, rfl⟩
          exact ⟨w :: ws, List.forall_mem_cons.mpr ⟨hw, hws⟩, rfl⟩
    rcases hws with ⟨ws, hws, rfl⟩
    exact ⟨ws, hws, List.length_pos_iff.mpr (by simpa using hne), rfl⟩
  · intro h
    rcases h with ⟨ws, hws, hlen, rfl⟩
    refine ⟨ws.map ([46] ++ ·), by simpa using List.length_pos_iff.mp hlen, ?_, rfl⟩
    intro u hu
    rcases List.mem_map.mp hu with ⟨w, hw, rfl⟩
    exact ⟨[46], w, rfl, hws w hw, rfl⟩

/-- `@(\w+)(\.(\w+))+` -/
theorem takes_domain (whole : Nat) :
    Takes whole (.seqs [char 64, word.plus, (Regex.seq (char 46) word.plus).plus])
      fun s => ∃ d, Dotted 2 d ∧ s = 64 :: d := by
  have hgroups := (takes_groups whole).seq .nothing
  apply ((takes_char whole 64).seq ((takes_word whole).seq hgroups)).congr
  intro s
  simp only [dotted_succ]
  constructor
  · intro h
    rcases h with ⟨_, _, rfl, ⟨w, _, hw, ⟨_, _, ⟨ws, hws, hlen, rfl⟩, rfl, rfl⟩, rfl⟩, rfl⟩
    exact ⟨_, ⟨w, ws, hw, hws, hlen, rfl⟩, by simp⟩
  · intro h
    rcases h with ⟨_, ⟨w, ws, hw, hws, hlen, rfl⟩, rfl⟩
    exact ⟨[64], _, rfl, ⟨w, _, hw, ⟨_, [], ⟨ws, hws, hlen, rfl⟩, rfl, rfl⟩, rfl⟩, by simp⟩

theorem takes_separator (whole : Nat) :
    Takes whole (Regex.alt (char 46) (char 95)).opt fun s =>
      (s = [46] ∨ s = [95]) ∨ s = [] :=
  ((takes_char whole 46).alt (takes_char whole 95)).opt

theorem regexMatch_emailPattern (s : Bytes) : emailPattern.regexMatch s ↔ Addressed s := by
  have hstar : Takes s.length (.star word) fun u => ∀ c ∈ u, WordChar c := Takes.star_one _
  have htakes := (takes_word s.length).seq
    ((takes_separator s.length).seq (hstar.seq (takes_domain s.length)))
  apply htakes.regexMatch_iff.trans
  constructor
  · intro h
    rcases h with ⟨a, _, ha, ⟨sep, _, hsep, ⟨b, _, hb, ⟨d, hd, rfl⟩, rfl⟩, rfl⟩, rfl⟩
    exact ⟨a, sep, b, d, ha, or_assoc.mp hsep, hb, hd, by simp⟩
  · intro h
    rcases h with ⟨a, sep, b, d, ha, hsep, hb, hd, rfl⟩
    exact ⟨a, _, ha, ⟨sep, _, or_assoc.mpr hsep, ⟨b, _, hb, ⟨d, hd, rfl⟩, rfl⟩, rfl⟩, by simp⟩

/-! ## The addresses that pass -/

theorem Word.append {a b : Bytes} (ha : Word a) (hb : ∀ c ∈ b, WordChar c) :
    Word (a ++ b) := by
  refine ⟨by simp [ha.1], ?_⟩
  intro c hc
  rcases List.mem_append.mp hc with ha' | hb'
  · exact ha.2 c ha'
  · exact hb c hb'

theorem wellFormedEmail_of_dotted {l d : Bytes} (hl : Dotted 1 l) (hd : Dotted 2 d) :
    WellFormedEmail (l ++ 64 :: d) :=
  ⟨l, d, rfl, hl.at_notMem, hd.at_notMem, hl, hd⟩

/-- A dot may be followed by no word at all, which is the one way for an
address out of form to match. -/
theorem Addressed.wellFormed_or_trailingDot {s : Bytes} (h : Addressed s) :
    WellFormedEmail s ∨ TrailingDot s := by
  rcases h with ⟨a, sep, b, d, ha, hsep, hb, hd, rfl⟩
  rcases hsep with rfl | rfl | rfl
  · by_cases hnil : b = []
    · exact .inr ⟨a, d, ha, hd, by simp [hnil]⟩
    · exact .inl (wellFormedEmail_of_dotted (ha.dotted_pair ⟨hnil, hb⟩) hd)
  · -- the underscore is a word character as well
    have hsep : ∀ c ∈ ([95] : Bytes), WordChar c := by
      intro c hc
      rw [List.mem_singleton.mp hc]
      rfl
    exact .inl (wellFormedEmail_of_dotted ((ha.append hsep).append hb).dotted hd)
  · rw [List.append_nil]
    exact .inl (wellFormedEmail_of_dotted (ha.append hb).dotted hd)

theorem TrailingDot.addressed {s : Bytes} (h : TrailingDot s) : Addressed s := by
  rcases h with ⟨w, d, hw, hd, rfl⟩
  exact ⟨w, [46], [], d, hw, .inl rfl, by simp, hd, by simp⟩

theorem TrailingDot.not_wellFormed {s : Bytes} (h : TrailingDot s) :
    ¬ WellFormedEmail s := by
  rcases h with ⟨w, d, -, hd, rfl⟩
  intro hform
  rcases hform with ⟨l, e, heq, hname, hdomain, hl, -⟩
  -- there is one `@` to split at
  have hsame := (List.append_cons_inj_of_notMem hname hdomain).mp heq.symm
  rcases hl.ends with ⟨t, c, hends, hc⟩
  have hlast : (46 : Byte) = c := by
    rw [hsame.1] at hends
    injection (List.append_inj' hends rfl).2
  rw [← hlast] at hc
  exact absurd hc (by decide)

theorem TrailingDot.accepted {s : Bytes} (h : TrailingDot s) :
    ∃ c digests, AcceptedEmail c digests s :=
  ⟨⟨id, fun _ => none, fun _ _ => none⟩, ⟨.succeeds, .succeeds, .succeeds⟩,
    (acceptedEmail_iff _ _ s).mpr ⟨(regexMatch_emailPattern s).mpr h.addressed, rfl⟩⟩

/-- **When an address that passes is well formed**: unless its name ends in a
dot. -/
theorem acceptedEmail_wellFormed_iff (s : Bytes) :
    (∀ c digests, AcceptedEmail c digests s → WellFormedEmail s) ↔ ¬ TrailingDot s := by
  constructor
  · intro h hdot
    rcases hdot.accepted with ⟨c, digests, haccepted⟩
    exact hdot.not_wellFormed (h c digests haccepted)
  · intro hdot c digests haccepted
    have hmatch := ((acceptedEmail_iff c digests s).mp haccepted).1
    have haddressed := (regexMatch_emailPattern s).mp hmatch
    exact haddressed.wellFormed_or_trailingDot.resolve_right hdot

theorem trailingDot_alice : TrailingDot (ascii "alice.@shop.example") := by
  refine ⟨ascii "alice", ascii "shop.example", by decide, ?_, rfl⟩
  refine ⟨[ascii "shop", ascii "example"], Nat.le_refl 2, ?_, rfl⟩
  intro w hw
  rcases List.mem_pair.mp hw with rfl | rfl
  · decide
  · decide

/-- A name that ends in a dot passes. -/
theorem not_wellFormed_alice :
    ¬ ∀ c digests, AcceptedEmail c digests (ascii "alice.@shop.example") →
      WellFormedEmail (ascii "alice.@shop.example") := by
  intro h
  rcases trailingDot_alice.accepted with ⟨c, digests, haccepted⟩
  exact trailingDot_alice.not_wellFormed (h c digests haccepted)

end Neroshop.Validator
