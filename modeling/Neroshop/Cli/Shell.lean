import Neroshop.Lib.IStream
import Neroshop.Lib.Loop

/-!
# The shell

`main.cpp`: the check of the network type, and the loop that reads the words
of the standard input. What the configuration script answers is a parameter.

The loop has no test for the end of the input: a read that finds no word leaves
the fresh string empty, and the shell prompts again. So it ends by the word
`exit` or never, and `main_ends_iff` says what it has printed in either case.
-/

namespace Neroshop.Shell

open Lib.CStr Lib.Loop
open Lib.IStream (Stream ofFile wordsOf extract_words)

/-- `std::isspace` in the C locale. -/
def isSpace (b : Byte) : Bool := b == 32 || (9 ≤ b && b ≤ 13)

/-- The network types that there are. -/
def networks : List Bytes := [ascii "mainnet", ascii "stagenet", ascii "testnet"]

/-- `neroshop::print`, in the default colours. -/
def print (text : Bytes) : Bytes :=
  ascii "\x1b[1;35;49m" ++ ascii "[neroshop]: " ++ ascii "\x1b[1;37;49m" ++ text
    ++ ascii "\x1b[0m" ++ ascii "\n"

/-- What each turn prints first. -/
def prompt : Bytes := ascii "neroshop>"

/-- What the shell prints for a word. -/
def respond (nodesList : List Bytes) (shellinput : Bytes) : Bytes :=
  if shellinput = ascii "help" then
    ascii ("Available commands:\n\n help  Display list of available commands\n\n"
      ++ " exit  Exit CLI")
  else if shellinput = ascii "monero_nodes" then
    (nodesList.map fun n => n ++ ascii "\n").flatten
  else []

/-- The standard input, and what is printed. -/
structure State where
  cin : Stream
  cout : Bytes

/-- One turn; the string is a fresh one, so it is empty when nothing is read. -/
def turn (nodesList : List Bytes) (s : State) : Turn State Bytes :=
  let cout := s.cout ++ prompt
  let (cin, shellinput) := s.cin.extract isSpace []
  let cout := cout ++ respond nodesList shellinput
  if shellinput = ascii "exit" then .leave cout else .next ⟨cin, cout⟩

/-- The warning before the first prompt. -/
def warning (nodesList : List Bytes) : Bytes :=
  if nodesList.isEmpty then
    ascii ("failed to get nodes in the config file\n"
      ++ "Check your config file in ~/.config/neroshop\n")
  else []

/-- `main`, behind the configuration: its result and what it has printed.
`none` is out of fuel. -/
def main (networkType : Bytes) (nodesList : List Bytes) (fuel : Nat) (cin : Stream) :
    Option (Nat × Bytes) :=
  if (networks.find? (· == networkType)).isNone then
    some (1, print (ascii "\x1b[1;91mnetwork_type \"" ++ networkType
      ++ ascii "\" is not valid"))
  else
    (loop (turn nodesList) fuel ⟨cin, warning nodesList⟩).map fun cout => (0, cout)

theorem find_networks (networkType : Bytes) :
    (networks.find? (· == networkType)).isNone ↔ networkType ∉ networks := by
  rw [Option.isNone_iff_eq_none, List.find?_eq_none]
  constructor
  · intro h hin
    exact h networkType hin (beq_self_eq_true networkType)
  · intro h n hn heq
    exact h (beq_iff_eq.mp heq ▸ hn)

/-! ## The loop -/

/-- The prompts and the answers for some words. -/
def transcript (nodesList : List Bytes) (ws : List Bytes) : Bytes :=
  (ws.map fun w => prompt ++ respond nodesList w).flatten

variable {nodesList : List Bytes} {s : State}

/-- A turn without a word prints the prompt, and nothing else happens. -/
theorem turn_nil (h : s.cin.words isSpace = []) :
    ∃ cin, turn nodesList s = .next ⟨cin, s.cout ++ prompt⟩ ∧ cin.words isSpace = [] := by
  have hread := extract_words isSpace s.cin []
  rw [h] at hread
  refine ⟨(s.cin.extract isSpace []).1, ?_, hread.2⟩
  simp only [turn, hread.1]
  rw [if_neg (by decide), show respond nodesList [] = [] from rfl, List.append_nil]

theorem turn_cons {w : Bytes} {ws : List Bytes} (h : s.cin.words isSpace = w :: ws) :
    ∃ cin, cin.words isSpace = ws
      ∧ turn nodesList s = if w = ascii "exit"
        then .leave (s.cout ++ transcript nodesList [w])
        else .next ⟨cin, s.cout ++ transcript nodesList [w]⟩ := by
  have hread := extract_words isSpace s.cin []
  rw [h] at hread
  refine ⟨(s.cin.extract isSpace []).1, hread.2, ?_⟩
  simp only [turn, hread.1, transcript, List.map_cons, List.map_nil, List.flatten_cons,
    List.flatten_nil, List.append_nil, List.append_assoc]

/-- The words up to the first `exit`. -/
def upToExit (ws : List Bytes) : List Bytes := ws.takeWhile (· != ascii "exit")

theorem loop_exit {ws : List Bytes} (hs : s.cin.words isSpace = ws)
    (hexit : ascii "exit" ∈ ws) {fuel : Nat} (hfuel : (upToExit ws).length < fuel) :
    loop (turn nodesList) fuel s
      = some (s.cout ++ transcript nodesList (upToExit ws) ++ prompt) := by
  induction ws generalizing s fuel with
  | nil => cases hexit
  | cons w ws ih =>
      obtain ⟨fuel, rfl⟩ : ∃ n, fuel = n + 1 := ⟨fuel - 1, by omega⟩
      obtain ⟨cin, hcin, hturn⟩ := @turn_cons nodesList s w ws hs
      by_cases hw : w = ascii "exit"
      · subst hw
        rw [if_pos rfl] at hturn
        rw [loop_leave hturn]
        simp [upToExit, transcript, respond, ascii]
      · rw [if_neg hw] at hturn
        have hup : upToExit (w :: ws) = w :: upToExit ws :=
          List.takeWhile_cons_of_pos (by simpa using hw)
        have hin : ascii "exit" ∈ ws := (List.mem_cons.mp hexit).resolve_left (Ne.symm hw)
        rw [hup, List.length_cons] at hfuel
        rw [loop_next hturn, ih hcin hin (by omega), hup]
        simp [transcript]

/-- What is printed after some turns: the prompts and the answers, and a prompt
for each turn that finds no word. -/
def printed (nodesList : List Bytes) (ws : List Bytes) (n : Nat) : Bytes :=
  transcript nodesList (ws.take n) ++ (List.replicate (n - ws.length) prompt).flatten

theorem printed_nil_succ (n : Nat) :
    printed nodesList [] (n + 1) = prompt ++ printed nodesList [] n := by
  simp [printed, transcript, List.replicate_succ]

theorem printed_cons_succ (w : Bytes) (ws : List Bytes) (n : Nat) :
    printed nodesList (w :: ws) (n + 1)
      = transcript nodesList [w] ++ printed nodesList ws n := by
  simp [printed, transcript]

/-- A shell to which nobody says `exit` goes on. -/
theorem turns_endless {ws : List Bytes} (hs : s.cin.words isSpace = ws)
    (hexit : ascii "exit" ∉ ws) (n : Nat) :
    ∃ cin, turns (turn nodesList) n s = some ⟨cin, s.cout ++ printed nodesList ws n⟩ := by
  induction n generalizing s ws with
  | zero => exact ⟨s.cin, by simp [turns, printed, transcript]⟩
  | succ n ih =>
      cases ws with
      | nil =>
          obtain ⟨cin, hturn, hcin⟩ := @turn_nil nodesList s hs
          obtain ⟨cin', hrest⟩ := @ih ⟨cin, s.cout ++ prompt⟩ [] hcin hexit
          refine ⟨cin', ?_⟩
          rw [turns_next hturn, hrest, printed_nil_succ, List.append_assoc]
      | cons w ws =>
          obtain ⟨cin, hcin, hturn⟩ := @turn_cons nodesList s w ws hs
          rw [List.mem_cons, not_or] at hexit
          rw [if_neg (Ne.symm hexit.1)] at hturn
          obtain ⟨cin', hrest⟩ :=
            @ih ⟨cin, s.cout ++ transcript nodesList [w]⟩ ws hcin hexit.2
          refine ⟨cin', ?_⟩
          rw [turns_next hturn, hrest, printed_cons_succ, List.append_assoc]

/-- **The shell**: on a valid network it ends exactly when one of the words of
the standard input is `exit`. It has answered each word before that, in order,
and nothing behind it; without an `exit` every number of turns is taken, each
with its prompt and the answer to its word, and with the prompt alone once the
input is at its end. -/
theorem main_ends_iff (networkType : Bytes) (nodesList : List Bytes) (input : Bytes) :
    ((∃ fuel r, main networkType nodesList fuel (ofFile input) = some r)
        ↔ networkType ∉ networks ∨ ascii "exit" ∈ wordsOf isSpace input)
      ∧ (networkType ∈ networks → ascii "exit" ∈ wordsOf isSpace input →
          ∀ fuel, (upToExit (wordsOf isSpace input)).length < fuel →
            main networkType nodesList fuel (ofFile input)
              = some (0, warning nodesList
                ++ transcript nodesList (upToExit (wordsOf isSpace input)) ++ prompt))
      ∧ (networkType ∈ networks → ascii "exit" ∉ wordsOf isSpace input → ∀ n, ∃ cin,
          turns (turn nodesList) n ⟨ofFile input, warning nodesList⟩
            = some ⟨cin, warning nodesList ++ printed nodesList (wordsOf isSpace input) n⟩) := by
  have hwords : (ofFile input).words isSpace = wordsOf isSpace input := rfl
  have hmain : ∀ fuel, networkType ∈ networks →
      main networkType nodesList fuel (ofFile input)
        = (loop (turn nodesList) fuel ⟨ofFile input, warning nodesList⟩).map
          fun cout => (0, cout) := by
    intro fuel hin
    exact if_neg fun hnone => (find_networks networkType).mp hnone hin
  have hexits : networkType ∈ networks → ascii "exit" ∈ wordsOf isSpace input →
      ∀ fuel, (upToExit (wordsOf isSpace input)).length < fuel →
        main networkType nodesList fuel (ofFile input)
          = some (0, warning nodesList
            ++ transcript nodesList (upToExit (wordsOf isSpace input)) ++ prompt) := by
    intro hin hexit fuel hfuel
    rw [hmain fuel hin, loop_exit hwords hexit hfuel]
    rfl
  refine ⟨?_, hexits, fun _ hexit n => turns_endless hwords hexit n⟩
  by_cases hin : networkType ∈ networks
  · constructor
    · intro h
      right
      obtain ⟨fuel, r, hr⟩ := h
      by_contra hexit
      obtain ⟨_, hturns⟩ := @turns_endless nodesList ⟨ofFile input, warning nodesList⟩
        _ hwords hexit fuel
      rw [hmain fuel hin, loop_eq_none_of_turns hturns] at hr
      cases hr
    · intro h
      have hexit := h.resolve_left (not_not.mpr hin)
      exact ⟨_, _, hexits hin hexit _ (Nat.lt_succ_self _)⟩
  · exact iff_of_true ⟨0, _, if_pos ((find_networks networkType).mpr hin)⟩ (.inl hin)

end Neroshop.Shell
