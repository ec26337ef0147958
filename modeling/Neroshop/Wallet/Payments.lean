import Neroshop.Wallet.Orders

/-!
# Wallet — the books on payments

The recent addresses and the three address lists of `wallet.cpp`, over runs
of the events that change the wallet: subaddresses are created, outputs
arrive, Monero marks a subaddress used, and the daemon connection comes and
goes.

`payments_accounted`: after every run the three lists are those of the wallet's
subaddresses, and each address is used, unused or recent, and only one of these.
-/

namespace Neroshop.Payments

open Lib.CStr Lib.EState Lib.Runs

variable (m : Monero)

/-- What happens to a wallet. -/
inductive Event where
  -- `address_new`
  | created
  -- `on_output_received`
  | output (subaddressIndex : Nat) (isLocked : Bool)
  -- Monero marks a subaddress used
  | used (subaddressIndex : Nat)
  -- the wallet becomes synced, or falls behind
  | daemon (isSynced : Bool)

/-- The Monero wallet after an event. -/
def monero (mw : MoneroWallet) : Event → MoneroWallet
  | .created => mw.createSubaddress m
  | .output _ _ => mw
  | .used subaddressIndex => mw.markUsed subaddressIndex
  | .daemon isSynced => { mw with isSynced := isSynced }

/-- One event. -/
def step (w : Wallet) : Event → Wallet
  | .created => after (Wallet.addressNew m) w
  | .output subaddressIndex isLocked =>
      after (Wallet.onOutputReceived subaddressIndex isLocked) w
  | e => { w with moneroWallet := w.moneroWallet.map fun mw => monero m mw e }

/-- A wallet before its first output. -/
def start (mw : MoneroWallet) : Wallet := ⟨some mw, []⟩

/-- Outputs are for subaddresses that exist, and come while the wallet is
synced. -/
def Expected (w : Wallet) : Event → Prop
  | .output subaddressIndex _ =>
      ∃ mw, w.moneroWallet = some mw ∧ mw.isSynced = true
        ∧ subaddressIndex < mw.subaddresses.length
  | _ => True

/-! ## The lists -/

section Lists

variable {recent : List Bytes} {subs : List Subaddress}

/-- Neither used nor recent. -/
def Free (recent : List Bytes) (s : Subaddress) : Bool :=
  !s.isUsed && !recent.contains s.address

theorem used_eq (subs : List Subaddress) :
    Wallet.used subs = addresses (subs.filter Subaddress.isUsed) := by
  induction subs with
  | nil => rfl
  | cons s subs ih =>
      simp only [Wallet.used, addresses] at ih ⊢
      cases hs : s.isUsed <;> simp [hs, ih]

theorem unused_eq (recent : List Bytes) (subs : List Subaddress) :
    Wallet.unused recent subs = addresses (subs.filter (Free recent)) := by
  induction subs with
  | nil => rfl
  | cons s subs ih =>
      simp only [Wallet.unused, addresses, Bool.not_eq_true'] at ih ⊢
      cases hs : s.isUsed with
      | true => simp [Free, hs, ih]
      | false =>
          by_cases hr : s.address ∈ recent
          · simp [Free, hs, hr, ih]
          · simp [Free, hs, hr, ih]

theorem mem_used_iff {a : Bytes} :
    a ∈ Wallet.used subs ↔ ∃ s ∈ subs, s.isUsed = true ∧ s.address = a := by
  rw [used_eq, addresses, List.mem_map]
  constructor
  · intro h
    obtain ⟨s, hs, rfl⟩ := h
    obtain ⟨hs, hused⟩ := List.mem_filter.mp hs
    exact ⟨s, hs, hused, rfl⟩
  · intro h
    obtain ⟨s, hs, hused, rfl⟩ := h
    exact ⟨s, List.mem_filter.mpr ⟨hs, hused⟩, rfl⟩

/-- With different addresses, an address says which subaddress it is. -/
theorem eq_of_address (hd : (addresses subs).Nodup) {s t : Subaddress} (hs : s ∈ subs)
    (ht : t ∈ subs) (heq : s.address = t.address) : s = t :=
  List.inj_on_of_nodup_map hd hs ht heq

/-- **What is unused**: the listed addresses that are neither used nor
recent. -/
theorem mem_unused_iff (hd : (addresses subs).Nodup) {a : Bytes} :
    a ∈ Wallet.unused recent subs
      ↔ a ∈ addresses subs ∧ a ∉ Wallet.used subs ∧ a ∉ recent := by
  rw [Wallet.mem_unused_iff, mem_used_iff]
  constructor
  · intro h
    obtain ⟨hrecent, s, hs, rfl, hunused⟩ := h
    refine ⟨List.mem_map_of_mem hs, ?_, hrecent⟩
    intro hused
    obtain ⟨t, ht, htused, heq⟩ := hused
    rw [eq_of_address hd ht hs heq, hunused] at htused
    cases htused
  · intro h
    obtain ⟨hall, hused, hrecent⟩ := h
    obtain ⟨s, hs, rfl⟩ := List.mem_map.mp hall
    refine ⟨hrecent, s, hs, rfl, ?_⟩
    rw [Bool.eq_false_iff]
    intro hsused
    exact hused ⟨s, hs, hsused, rfl⟩

theorem nodup_unused (hd : (addresses subs).Nodup) : (Wallet.unused recent subs).Nodup := by
  rw [unused_eq]
  exact hd.sublist (List.filter_sublist.map _)

end Lists

/-! ## One event -/

section Steps

variable {m} {mw : MoneroWallet} {recent : List Bytes}

/-- The recent addresses after an event. -/
def remember (mw : MoneroWallet) (recent : List Bytes) : Event → List Bytes
  | .output subaddressIndex true =>
      match (addresses mw.subaddresses)[subaddressIndex]? with
      | some a => if recent.contains a then recent else recent ++ [a]
      | none => recent
  | _ => recent

theorem step_eq {e : Event} (he : Expected ⟨some mw, recent⟩ e) :
    step m ⟨some mw, recent⟩ e = ⟨some (monero m mw e), remember mw recent e⟩ := by
  cases e with
  | created => rfl
  | used subaddressIndex => rfl
  | daemon isSynced => rfl
  | output subaddressIndex isLocked =>
      obtain ⟨mw', hmw, hsynced, hlt⟩ := he
      obtain rfl : mw = mw' := Option.some.inj hmw
      have hget : mw.subaddresses[subaddressIndex]?
          = some mw.subaddresses[subaddressIndex] := List.getElem?_eq_getElem hlt
      cases isLocked with
      | false =>
          simp [step, after, Wallet.onOutputReceived, Wallet.getAddress, Wallet.opened,
            hsynced, hget, monero, remember]
      | true =>
          simp only [step, after, Wallet.onOutputReceived, Wallet.getAddress,
            Wallet.opened, bind_apply, get_apply, pure_apply, if_apply, modify_apply,
            hsynced, hget, if_true, monero, remember, addresses, List.getElem?_map,
            Option.map_some, List.contains_iff_mem]
          split <;> rfl

theorem nodup_remember (h : recent.Nodup) (e : Event) : (remember mw recent e).Nodup := by
  unfold remember
  split
  · split
    · split
      · exact h
      · next hnew =>
          rw [List.nodup_append']
          rw [List.contains_iff_mem] at hnew
          exact ⟨h, List.nodup_singleton _, List.disjoint_singleton.mpr hnew⟩
    · exact h
  · exact h

/-- An event adds the address of the output it locks, and nothing else. -/
theorem mem_remember {e : Event} {a : Bytes} :
    a ∈ remember mw recent e
      ↔ a ∈ recent ∨ ∃ i, e = .output i true ∧ (addresses mw.subaddresses)[i]? = some a := by
  unfold remember
  split
  · next i =>
      have hi : (∃ j, Event.output i true = .output j true
          ∧ (addresses mw.subaddresses)[j]? = some a)
          ↔ (addresses mw.subaddresses)[i]? = some a := by simp
      rw [hi]
      split
      · next b hb =>
          rw [hb, Option.some.injEq]
          split
          · next hold =>
              constructor
              · exact .inl
              · intro h
                rcases h with h | rfl
                · exact h
                · exact List.contains_iff_mem.mp hold
          · rw [List.mem_append, List.mem_singleton, eq_comm]
      · next hnone => simp [hnone]
  · next hne =>
      constructor
      · exact .inl
      · intro h
        rcases h with h | ⟨i, rfl, -⟩
        · exact h
        · exact absurd rfl (hne i)

/-- What the Monero wallet keeps: its addresses, in their places, and what
is used. -/
structure Grows (mw mw' : MoneroWallet) : Prop where
  addresses : addresses mw.subaddresses <+: addresses mw'.subaddresses
  used : ∀ a ∈ Wallet.used mw.subaddresses, a ∈ Wallet.used mw'.subaddresses

theorem Grows.refl (mw : MoneroWallet) : Grows mw mw := ⟨List.prefix_refl _, fun _ => id⟩

theorem Grows.trans {mw mw' mw'' : MoneroWallet} (h : Grows mw mw') (h' : Grows mw' mw'') :
    Grows mw mw'' :=
  ⟨h.addresses.trans h'.addresses, fun a ha => h'.used a (h.used a ha)⟩

theorem grows_monero (e : Event) : Grows mw (monero m mw e) := by
  cases e with
  | output subaddressIndex isLocked => exact Grows.refl mw
  | daemon isSynced => exact ⟨List.prefix_refl _, fun _ => id⟩
  | created =>
      refine ⟨?_, ?_⟩
      · rw [monero, MoneroWallet.createSubaddress, addresses, addresses, List.map_append]
        exact List.prefix_append _ _
      · intro a ha
        obtain ⟨s, hs, hused, rfl⟩ := mem_used_iff.mp ha
        exact mem_used_iff.mpr ⟨s, List.mem_append_left _ hs, hused, rfl⟩
  | used index =>
      refine ⟨?_, ?_⟩
      · have hsame : addresses (mw.markUsed index).subaddresses
            = addresses mw.subaddresses := addresses_modify _ _
        exact hsame ▸ List.prefix_refl _
      · intro a ha
        obtain ⟨s, hs, hused, rfl⟩ := mem_used_iff.mp ha
        obtain ⟨i, hi⟩ := List.mem_iff_getElem?.mp hs
        by_cases heq : index = i
        · refine mem_used_iff.mpr ⟨{ s with isUsed := true }, ?_, rfl, rfl⟩
          refine List.mem_iff_getElem?.mpr ⟨i, ?_⟩
          simp [monero, MoneroWallet.markUsed, heq, hi]
        · refine mem_used_iff.mpr ⟨s, ?_, hused, rfl⟩
          refine List.mem_iff_getElem?.mpr ⟨i, ?_⟩
          simp [monero, MoneroWallet.markUsed, heq, hi]

end Steps

/-! ## Every run -/

/-- The addresses for which a run locks an output, by the places they have in
a wallet. -/
def Locked (es : List Event) (mw : MoneroWallet) (a : Bytes) : Prop :=
  ∃ i, Event.output i true ∈ es ∧ (addresses mw.subaddresses)[i]? = some a

/-- An address keeps its place. -/
theorem place_eq {mw mw' : MoneroWallet} (h : Grows mw mw') {i : Nat}
    (hi : i < mw.subaddresses.length) :
    (addresses mw'.subaddresses)[i]? = (addresses mw.subaddresses)[i]? := by
  rcases h.addresses with ⟨rest, hrest⟩
  have hlen : i < (addresses mw.subaddresses).length := by simpa [addresses] using hi
  rw [← hrest, List.getElem?_append_left hlen]

/-- The addresses locked by a run are those of its first event and of the rest. -/
theorem locked_cons {mw mw' : MoneroWallet} {recent : List Bytes} {e : Event}
    (es : List Event) (he : Expected ⟨some mw, recent⟩ e) (h : Grows mw mw') (a : Bytes) :
    Locked (e :: es) mw' a
      ↔ (∃ i, e = .output i true ∧ (addresses mw.subaddresses)[i]? = some a)
        ∨ Locked es mw' a := by
  have hplace : ∀ i, e = .output i true →
      (addresses mw'.subaddresses)[i]? = (addresses mw.subaddresses)[i]? := by
    rintro i rfl
    rcases he with ⟨mw₀, hmw, -, hlt⟩
    obtain rfl : mw = mw₀ := Option.some.inj hmw
    exact place_eq h hlt
  constructor
  · intro h
    rcases h with ⟨i, hi, ha⟩
    rcases List.mem_cons.mp hi with hi | hi
    · exact .inl ⟨i, hi.symm, hplace i hi.symm ▸ ha⟩
    · exact .inr ⟨i, hi, ha⟩
  · intro h
    rcases h with ⟨i, hi, ha⟩ | ⟨i, hi, ha⟩
    · exact ⟨i, by simp [hi], (hplace i hi).trans ha⟩
    · exact ⟨i, List.mem_cons_of_mem e hi, ha⟩

/-- What a run does to an opened wallet. -/
structure Ran (es : List Event) (mw mw' : MoneroWallet) (recent recent' : List Bytes) :
    Prop where
  grows : Grows mw mw'
  nodup : recent.Nodup → recent'.Nodup
  recent : ∀ a, a ∈ recent' ↔ a ∈ recent ∨ Locked es mw' a

theorem run_ran {mw : MoneroWallet} {recent : List Bytes} {es : List Event}
    (h : Along (step m) Expected ⟨some mw, recent⟩ es) :
    ∃ mw' recent', run (step m) ⟨some mw, recent⟩ es = ⟨some mw', recent'⟩
      ∧ Ran es mw mw' recent recent' := by
  induction es generalizing mw recent with
  | nil => exact ⟨mw, recent, rfl, Grows.refl mw, id, by simp [Locked]⟩
  | cons e es ih =>
      obtain ⟨he, hes⟩ := h
      rw [step_eq he] at hes
      obtain ⟨mw', recent', hrun, hran⟩ := ih hes
      refine ⟨mw', recent', ?_, (grows_monero e).trans hran.grows, ?_, ?_⟩
      · rw [run_cons, step_eq he, hrun]
      · intro hnodup
        exact hran.nodup (nodup_remember hnodup e)
      · intro a
        have hlocked := locked_cons es he ((grows_monero (m := m) e).trans hran.grows) a
        rw [hran.recent a, mem_remember, or_assoc, hlocked]

theorem run_start {mw : MoneroWallet} {es : List Event}
    (h : Along (step m) Expected (start mw) es) :
    ∃ mw' recent, run (step m) (start mw) es = ⟨some mw', recent⟩
      ∧ Ran es mw mw' [] recent := run_ran m h

/-! ## The books -/

/-- One of the three, and no other. -/
def ExactlyOne (a b c : Prop) : Prop :=
  (a ∧ ¬ b ∧ ¬ c) ∨ (¬ a ∧ b ∧ ¬ c) ∨ (¬ a ∧ ¬ b ∧ c)

/-- What the three lists are, for a wallet and its recent addresses. -/
structure Accounted (mw : MoneroWallet) (recent all used unused : List Bytes) :
    Prop where
  all_eq : all = addresses mw.subaddresses
  used_eq : used = addresses (mw.subaddresses.filter Subaddress.isUsed)
  -- in index order
  unused_eq : unused = addresses (mw.subaddresses.filter (Free recent))
  once : unused.Nodup
  one : ∀ a ∈ all, ExactlyOne (a ∈ used) (a ∈ unused) (a ∉ used ∧ a ∈ recent)

/-- The wallet's calls return these lists, and change nothing. -/
def Lists (w : Wallet) (all used unused : List Bytes) : Prop :=
  Wallet.addressAll w = .ok all w ∧ Wallet.addressUsed w = .ok used w
    ∧ Wallet.addressUnused w = .ok unused w

theorem lists_of_synced {mw : MoneroWallet} (hsynced : mw.isSynced = true)
    (recent : List Bytes) :
    Lists ⟨some mw, recent⟩ (addresses mw.subaddresses) (Wallet.used mw.subaddresses)
      (Wallet.unused recent mw.subaddresses) := by
  refine ⟨?_, ?_, ?_⟩
  · simp [Wallet.addressAll, Wallet.synced, Wallet.opened, hsynced]
  · simp [Wallet.addressUsed, Wallet.synced, Wallet.opened, hsynced]
  · simp [Wallet.addressUnused, Wallet.synced, Wallet.opened, hsynced]

theorem unused_of_returned {mw : MoneroWallet} {recent l : List Bytes}
    (h : Wallet.addressUnused ⟨some mw, recent⟩ = .ok l ⟨some mw, recent⟩) :
    l = Wallet.unused recent mw.subaddresses := by
  cases hsynced : mw.isSynced with
  | true =>
      obtain ⟨-, -, hunused⟩ := lists_of_synced hsynced recent
      rw [hunused] at h
      injection h with h
      exact h.symm
  | false => simp [Wallet.addressUnused, Wallet.synced, Wallet.opened, hsynced] at h

theorem accounted (mw : MoneroWallet) (recent : List Bytes) :
    Accounted mw recent (addresses mw.subaddresses) (Wallet.used mw.subaddresses)
      (Wallet.unused recent mw.subaddresses) := by
  refine ⟨rfl, used_eq _, unused_eq _ _, nodup_unused mw.distinct, ?_⟩
  intro a ha
  have hiff : a ∈ Wallet.unused recent mw.subaddresses ↔ _ := mem_unused_iff mw.distinct
  by_cases hused : a ∈ Wallet.used mw.subaddresses
  · left
    exact ⟨hused, fun h => (hiff.mp h).2.1 hused, fun h => h.1 hused⟩
  · by_cases hrecent : a ∈ recent
    · right; right
      exact ⟨hused, fun h => (hiff.mp h).2.2 hrecent, hused, hrecent⟩
    · right; left
      exact ⟨hused, hiff.mpr ⟨ha, hused, hrecent⟩, fun h => hrecent h.2⟩

/-- An address that exists and is not listed as unused is not listed later. -/
theorem Ran.not_unused {es : List Event} {mw mw' : MoneroWallet}
    {recent recent' : List Bytes} (h : Ran es mw mw' recent recent') {a : Bytes}
    (hall : a ∈ addresses mw.subaddresses) (ha : a ∉ Wallet.unused recent mw.subaddresses) :
    a ∉ Wallet.unused recent' mw'.subaddresses := by
  intro hin
  obtain ⟨-, hused, hrecent⟩ := (mem_unused_iff mw'.distinct).mp hin
  apply ha
  refine (mem_unused_iff mw.distinct).mpr ⟨hall, ?_, ?_⟩
  · intro hold
    exact hused (h.grows.used a hold)
  · intro hold
    exact hrecent ((h.recent a).mpr (.inl hold))

/-- **The books on payments**: in every run the recent addresses are, once
each, those that a locked output was for; whenever the wallet is synced its
three lists account for every address; and an address that has left the
unused ones does not come back. -/
theorem payments_accounted (mw : MoneroWallet) (es : List Event)
    (h : Along (step m) Expected (start mw) es) :
    ∃ mw' recent, run (step m) (start mw) es = ⟨some mw', recent⟩
      ∧ recent.Nodup
      ∧ (∀ a, a ∈ recent ↔ Locked es mw' a)
      ∧ (mw'.isSynced = true → ∃ all used unused,
          Lists ⟨some mw', recent⟩ all used unused
            ∧ Accounted mw' recent all used unused)
      ∧ ∀ es₁ es₂ es₃, es = es₁ ++ es₂ ++ es₃ →
          ∀ l₁ l₂ l₃,
            let w₁ := run (step m) (start mw) es₁
            let w₂ := run (step m) (start mw) (es₁ ++ es₂)
            Wallet.addressUnused w₁ = .ok l₁ w₁ → Wallet.addressUnused w₂ = .ok l₂ w₂ →
            Wallet.addressUnused ⟨some mw', recent⟩ = .ok l₃ ⟨some mw', recent⟩ →
            ∀ a ∈ l₁, a ∉ l₂ → a ∉ l₃ := by
  obtain ⟨mw', recent, hrun, hran⟩ := run_start m h
  refine ⟨mw', recent, hrun, hran.nodup List.nodup_nil, ?_, ?_, ?_⟩
  · intro a
    rw [hran.recent a]
    simp
  · intro hsynced
    exact ⟨_, _, _, lists_of_synced hsynced recent, accounted mw' recent⟩
  · intro es₁ es₂ es₃ hes l₁ l₂ l₃ w₁ w₂ hl₁ hl₂ hl₃ a ha₁ ha₂
    subst hes
    rw [along_append, along_append] at h
    obtain ⟨⟨h₁, h₂⟩, h₃⟩ := h
    obtain ⟨mw₁, recent₁, hrun₁, -⟩ := run_start m h₁
    rw [hrun₁] at h₂
    obtain ⟨mw₂, recent₂, hrun₂, hran₂⟩ := run_ran m h₂
    have hw₂ : run (step m) (start mw) (es₁ ++ es₂) = ⟨some mw₂, recent₂⟩ := by
      rw [run_append, hrun₁, hrun₂]
    rw [hw₂] at h₃
    obtain ⟨mw₃, recent₃, hrun₃, hran₃⟩ := run_ran m h₃
    have hend : (⟨some mw', recent⟩ : Wallet) = ⟨some mw₃, recent₃⟩ := by
      rw [← hrun, run_append, hw₂, hrun₃]
    injection hend with hmw hrecent
    obtain rfl : mw' = mw₃ := Option.some.inj hmw
    subst hrecent
    simp only [w₁, hrun₁] at hl₁
    simp only [w₂, hw₂] at hl₂
    rw [unused_of_returned hl₁] at ha₁
    rw [unused_of_returned hl₂] at ha₂
    rw [unused_of_returned hl₃]
    have hall₁ := ((mem_unused_iff mw₁.distinct).mp ha₁).1
    exact hran₃.not_unused (hran₂.grows.addresses.subset hall₁) ha₂

theorem payments_accounted_output :
    let es : List Event := [.created, .output 1 true, .used 1, .output 1 true]
    ∃ mw' recent, run (step growing) (start primary) es = ⟨some mw', recent⟩
      ∧ recent.Nodup
      ∧ (∀ a, a ∈ recent ↔ Locked es mw' a)
      ∧ (mw'.isSynced = true → ∃ all used unused,
          Lists ⟨some mw', recent⟩ all used unused
            ∧ Accounted mw' recent all used unused)
      ∧ ∀ es₁ es₂ es₃, es = es₁ ++ es₂ ++ es₃ →
          ∀ l₁ l₂ l₃,
            let w₁ := run (step growing) (start primary) es₁
            let w₂ := run (step growing) (start primary) (es₁ ++ es₂)
            Wallet.addressUnused w₁ = .ok l₁ w₁ → Wallet.addressUnused w₂ = .ok l₂ w₂ →
            Wallet.addressUnused ⟨some mw', recent⟩ = .ok l₃ ⟨some mw', recent⟩ →
            ∀ a ∈ l₁, a ∉ l₂ → a ∉ l₃ :=
  payments_accounted growing primary [.created, .output 1 true, .used 1, .output 1 true]
    ⟨trivial, ⟨_, rfl, rfl, by decide⟩, trivial, ⟨_, rfl, rfl, by decide⟩, trivial⟩

end Neroshop.Payments
