import Neroshop.Lib.Runs
import Neroshop.Wallet.Addresses

/-!
# Seller — payment addresses

`seller.cpp`: `on_order_received`, and the runs that interleave it with what
happens to the wallet. The random pick of an order and the outputs that
arrive are the events of a run.

* `Available`: an address that an order may get.
* `Served` and `Settled`: an order gets one, and earlier ones are taken.
* `orders_served`: what the orders of a run get.
-/

namespace Neroshop

open Lib.CStr Lib.EState Lib.Runs

/-- A seller, with its wallet. -/
structure Seller where
  wallet : Option Wallet

/-- Seller code. -/
abbrev SellerM := EStateM WalletError Seller

variable (m : Monero)

namespace Seller

/-- Wallet code, on the seller's wallet. -/
def onWallet {α : Type} (x : WalletM α) : SellerM α := fun s =>
  match s.wallet with
  | none => .error (.runtime (ascii "wallet has not been initialized")) s
  | some w =>
      match x w with
      | .ok a w' => .ok a { s with wallet := some w' }
      | .error e w' => .error e { s with wallet := some w' }

/-- `for(int i = 0; i < n; i++) wallet->address_new()` -/
def addressesNew : Nat → WalletM Unit
  | 0 => pure ()
  | n + 1 => do
      let _ ← Wallet.addressNew m
      addressesNew n

/-- `static_cast<int>(dist(mt))`, for a `dist` over `[0, size - 1)`. -/
def drawn (size pick : Nat) : Nat := pick % max 1 (size - 1)

/-- `Seller::on_order_received`: the subaddress it sets. -/
def onOrderReceived (pick : Nat) : SellerM Bytes := onWallet do
  let _ ← Wallet.synced
  addressesNew m 10
  let unusedSubaddressList ← Wallet.addressUnused
  match unusedSubaddressList[drawn unusedSubaddressList.length pick]? with
  | none => throw .outOfRange
  | some subaddress => pure subaddress

end Seller

/-! ## Runs -/

/-- The seller, the subaddress indices to which an output has been seen, and
the addresses that the orders got. -/
structure Shop where
  seller : Seller
  seen : List Nat
  handed : List Bytes

/-- What happens to a shop. -/
inductive Event where
  -- `on_order_received`, with its random pick
  | order (pick : Nat)
  -- an output arrives
  | output (subaddressIndex : Nat) (isLocked : Bool)
  -- Monero marks a subaddress used
  | used (subaddressIndex : Nat)
  -- a subaddress is created
  | created

/-- Something happens to the Monero wallet of a seller. -/
def Seller.mapMonero (f : MoneroWallet → MoneroWallet) (s : Seller) : Seller :=
  { s with wallet := s.wallet.map fun w =>
    { w with moneroWallet := w.moneroWallet.map f } }

/-- One event. A subaddress becomes used only once an output to it has been
seen. -/
def Shop.step (s : Shop) : Event → Shop
  | .order pick =>
      match Seller.onOrderReceived m pick s.seller with
      | .ok subaddress seller =>
          { s with seller := seller, handed := s.handed ++ [subaddress] }
      | .error _ seller => { s with seller := seller }
  | .output subaddressIndex isLocked =>
      { s with
        seller := after
          (Seller.onWallet (Wallet.onOutputReceived subaddressIndex isLocked)) s.seller
        seen := subaddressIndex :: s.seen }
  | .used subaddressIndex =>
      if subaddressIndex ∈ s.seen then
        { s with seller := s.seller.mapMonero (·.markUsed subaddressIndex) }
      else s
  | .created =>
      { s with seller := after (Seller.onWallet (Wallet.addressNew m)) s.seller }

/-- A seller with a wallet, before its first order. -/
def Shop.start (mw : MoneroWallet) : Shop := ⟨⟨some ⟨some mw, []⟩⟩, [], []⟩

/-! ## Available addresses -/

/-- The address is one of the wallet's subaddresses, neither used nor
recent. -/
def Available (s : Seller) (a : Bytes) : Prop :=
  ∃ w mw, s.wallet = some w ∧ w.moneroWallet = some mw
    ∧ a ∉ w.recentAddressList
    ∧ ∃ sub ∈ mw.subaddresses, sub.address = a ∧ sub.isUsed = false

theorem Wallet.mem_unused_iff {recent : List Bytes} {subs : List Subaddress}
    {a : Bytes} :
    a ∈ unused recent subs
      ↔ a ∉ recent ∧ ∃ sub ∈ subs, sub.address = a ∧ sub.isUsed = false := by
  simp only [unused, List.mem_filterMap, Bool.not_eq_true']
  constructor
  · intro h
    obtain ⟨sub, hsub, h⟩ := h
    by_cases hused : sub.isUsed = false
    · by_cases hrecent : sub.address ∈ recent
      · simp [hused, hrecent] at h
      · simp only [hused, hrecent, if_true, if_false, Option.some.injEq] at h
        exact ⟨h ▸ hrecent, sub, hsub, h, hused⟩
    · simp [hused] at h
  · intro h
    obtain ⟨hrecent, sub, hsub, rfl, hused⟩ := h
    exact ⟨sub, hsub, by simp [hused, hrecent]⟩

/-! ## One order -/

/-- Some new subaddresses, one after the other. -/
def MoneroWallet.createMany (mw : MoneroWallet) : Nat → MoneroWallet
  | 0 => mw
  | n + 1 => (mw.createSubaddress m).createMany n

theorem MoneroWallet.createMany_spec (mw : MoneroWallet) (n : Nat) :
    ∃ new, (mw.createMany m n).subaddresses = mw.subaddresses ++ new
      ∧ new.length = n ∧ (∀ sub ∈ new, sub.isUsed = false)
      ∧ (mw.createMany m n).isSynced = mw.isSynced := by
  induction n generalizing mw with
  | zero => exact ⟨[], by simp [createMany]⟩
  | succ n ih =>
      obtain ⟨new, hsubs, hlen, hunused, hsynced⟩ := ih (mw.createSubaddress m)
      refine ⟨mw.newSubaddress m :: new, ?_, by simp [hlen], ?_, hsynced⟩
      · rw [createMany, hsubs]
        simp [createSubaddress]
      · simpa [newSubaddress] using hunused

theorem Seller.addressesNew_eq (mw : MoneroWallet) (recent : List Bytes) (n : Nat) :
    addressesNew m n ⟨some mw, recent⟩
      = .ok () ⟨some (mw.createMany m n), recent⟩ := by
  induction n generalizing mw with
  | zero => rfl
  | succ n ih =>
      rw [addressesNew, bind_apply]
      exact ih (mw.createSubaddress m)

theorem Wallet.unused_createMany {mw : MoneroWallet} {recent : List Bytes}
    (hrecent : ∀ a ∈ recent, a ∈ addresses mw.subaddresses) (n : Nat) :
    ∃ new, unused recent (mw.createMany m n).subaddresses
        = unused recent mw.subaddresses ++ new ∧ new.length = n := by
  obtain ⟨new, hsubs, hlen, hunused, -⟩ := mw.createMany_spec m n
  have hdistinct := (mw.createMany m n).distinct
  rw [hsubs, addresses, List.map_append, List.nodup_append'] at hdistinct
  have hnew : unused recent new = addresses new := by
    rw [unused, addresses, ← List.filterMap_eq_map]
    apply List.filterMap_congr
    intro sub hsub
    -- the recent addresses are those of old subaddresses
    have hold : sub.address ∉ recent := by
      intro h
      exact hdistinct.2.2 (hrecent _ h) (List.mem_map_of_mem hsub)
    simp [hunused sub hsub, hold]
  refine ⟨addresses new, ?_, by simp [addresses, hlen]⟩
  rw [hsubs, ← hnew]
  exact List.filterMap_append

section Order

variable {mw : MoneroWallet} {recent : List Bytes}

/-- The addresses among which an order picks. -/
def candidates (mw : MoneroWallet) (recent : List Bytes) : List Bytes :=
  Wallet.unused recent (mw.createMany m 10).subaddresses

theorem Seller.onOrderReceived_eq (hsynced : mw.isSynced = true) (pick : Nat) :
    onOrderReceived m pick ⟨some ⟨some mw, recent⟩⟩
      = match (candidates m mw recent)[
          drawn (candidates m mw recent).length pick]? with
        | none => .error .outOfRange ⟨some ⟨some (mw.createMany m 10), recent⟩⟩
        | some a => .ok a ⟨some ⟨some (mw.createMany m 10), recent⟩⟩ := by
  obtain ⟨-, -, -, -, hsynced'⟩ := mw.createMany_spec m 10
  simp only [onOrderReceived, onWallet, Wallet.synced, Wallet.addressUnused,
    Wallet.opened, bind_apply, get_apply, pure_apply, if_apply, hsynced, if_true,
    addressesNew_eq, hsynced']
  unfold candidates
  cases (Wallet.unused recent (mw.createMany m 10).subaddresses)[
    drawn (Wallet.unused recent (mw.createMany m 10).subaddresses).length pick]? <;> rfl

/-- **An order is served**: whatever the pick, with an address that is
available afterwards. -/
theorem Seller.onOrderReceived_ok (hsynced : mw.isSynced = true)
    (hrecent : ∀ a ∈ recent, a ∈ addresses mw.subaddresses) (pick : Nat) :
    ∃ a, onOrderReceived m pick ⟨some ⟨some mw, recent⟩⟩
        = .ok a ⟨some ⟨some (mw.createMany m 10), recent⟩⟩
      ∧ a ∈ candidates m mw recent := by
  obtain ⟨new, hunused, hlen⟩ := Wallet.unused_createMany m hrecent 10
  have hten : 10 ≤ (candidates m mw recent).length := by
    rw [candidates, hunused, List.length_append]
    omega
  have hlt : drawn (candidates m mw recent).length pick
      < (candidates m mw recent).length := by
    have hmod := Nat.mod_lt pick
      (show max 1 ((candidates m mw recent).length - 1) > 0 by omega)
    unfold drawn
    omega
  refine ⟨_, ?_, List.getElem_mem hlt⟩
  rw [onOrderReceived_eq m hsynced, List.getElem?_eq_getElem hlt]

theorem Seller.onOrderReceived_pick (hsynced : mw.isSynced = true)
    (hrecent : ∀ a ∈ recent, a ∈ addresses mw.subaddresses) {a : Bytes}
    (ha : a ∈ Wallet.unused recent mw.subaddresses) :
    ∃ pick, onOrderReceived m pick ⟨some ⟨some mw, recent⟩⟩
      = .ok a ⟨some ⟨some (mw.createMany m 10), recent⟩⟩ := by
  obtain ⟨new, hunused, hlen⟩ := Wallet.unused_createMany m hrecent 10
  obtain ⟨pick, hpick, hget⟩ := List.getElem_of_mem ha
  have hdrawn : drawn (candidates m mw recent).length pick = pick := by
    rw [drawn, candidates, hunused, List.length_append, Nat.mod_eq_of_lt (by omega)]
  refine ⟨pick, ?_⟩
  rw [onOrderReceived_eq m hsynced, hdrawn, candidates, hunused,
    List.getElem?_append_left hpick, List.getElem?_eq_getElem hpick, hget]

end Order

/-! ## Every run -/

/-- What every run keeps: the wallet stays opened and synced, and the recent
addresses and the handed ones are subaddresses. -/
def Shop.Inv (s : Shop) : Prop :=
  ∃ mw recent, s.seller = ⟨some ⟨some mw, recent⟩⟩ ∧ mw.isSynced = true
    ∧ (∀ a ∈ recent, a ∈ addresses mw.subaddresses)
    ∧ (∀ a ∈ s.handed, a ∈ addresses mw.subaddresses)

/-- The event does not hand out an unavailable address: an order returns,
with an address that is available then. -/
def Shop.Served (s : Shop) : Event → Prop
  | .order pick =>
      ∃ a seller, Seller.onOrderReceived m pick s.seller = .ok a seller
        ∧ Available seller a
  | _ => True

/-- No order comes in while an address handed out earlier is still neither
used nor recent. -/
def Shop.Settled (s : Shop) : Event → Prop
  | .order _ => ∀ a ∈ s.handed, ¬ Available s.seller a
  | _ => True

theorem available_iff {mw : MoneroWallet} {recent : List Bytes} {a : Bytes} :
    Available ⟨some ⟨some mw, recent⟩⟩ a
      ↔ a ∈ Wallet.unused recent mw.subaddresses := by
  rw [Wallet.mem_unused_iff]
  constructor
  · intro h
    obtain ⟨w, mw', hw, hmw, h⟩ := h
    cases hw
    cases hmw
    exact h
  · intro h
    exact ⟨_, _, rfl, rfl, h⟩

theorem mem_addresses_createMany {mw : MoneroWallet} {a : Bytes} (n : Nat)
    (h : a ∈ addresses mw.subaddresses) :
    a ∈ addresses (mw.createMany m n).subaddresses := by
  obtain ⟨new, hsubs, -⟩ := mw.createMany_spec m n
  rw [hsubs, addresses, List.map_append]
  exact List.mem_append_left _ h

/-- An output only adds its own subaddress to the recent ones. -/
theorem Seller.after_onOutputReceived {mw : MoneroWallet}
    (hsynced : mw.isSynced = true) (recent : List Bytes) (index : Nat)
    (isLocked : Bool) :
    ∃ recent', after (onWallet (Wallet.onOutputReceived index isLocked))
        ⟨some ⟨some mw, recent⟩⟩ = ⟨some ⟨some mw, recent'⟩⟩
      ∧ ∀ a ∈ recent', a ∈ recent ∨ a ∈ addresses mw.subaddresses := by
  simp only [after, onWallet, Wallet.onOutputReceived, Wallet.getAddress,
    Wallet.opened, bind_apply, get_apply, pure_apply, if_apply, hsynced, if_true]
  cases hsub : mw.subaddresses[index]? with
  | none => exact ⟨recent, rfl, fun a ha => .inl ha⟩
  | some sub =>
      have hmem : sub.address ∈ addresses mw.subaddresses :=
        List.mem_map_of_mem (List.mem_of_getElem? hsub)
      by_cases hadd : isLocked = true ∧ sub.address ∉ recent
      · refine ⟨recent ++ [sub.address], by simp [hadd], ?_⟩
        intro a ha
        rcases List.mem_append.mp ha with ha | ha
        · exact .inl ha
        · exact .inr (List.mem_singleton.mp ha ▸ hmem)
      · refine ⟨recent, ?_, fun a ha => .inl ha⟩
        cases isLocked <;> simp_all

theorem Shop.served {s : Shop} (hs : s.Inv) (e : Event) : s.Served m e := by
  obtain ⟨mw, recent, hseller, hsynced, hrecent, -⟩ := hs
  cases e with
  | order pick =>
      obtain ⟨a, hok, ha⟩ := Seller.onOrderReceived_ok m hsynced hrecent pick
      exact ⟨a, _, hseller ▸ hok, available_iff.mpr ha⟩
  | output _ _ => trivial
  | used _ => trivial
  | created => trivial

theorem Shop.inv_step {s : Shop} (e : Event) (hs : s.Inv) : (s.step m e).Inv := by
  obtain ⟨mw, recent, hseller, hsynced, hrecent, hhanded⟩ := hs
  obtain ⟨-, -, -, -, hsyncedMany⟩ := mw.createMany_spec m 10
  cases e with
  | order pick =>
      obtain ⟨a, hok, ha⟩ := Seller.onOrderReceived_ok m hsynced hrecent pick
      refine ⟨mw.createMany m 10, recent, ?_, hsyncedMany.trans hsynced, ?_, ?_⟩
      · simp [step, hseller, hok]
      · intro b hb
        exact mem_addresses_createMany m 10 (hrecent b hb)
      · simp only [step, hseller, hok, List.mem_append, List.mem_singleton]
        intro b hb
        rcases hb with hb | rfl
        · exact mem_addresses_createMany m 10 (hhanded b hb)
        · obtain ⟨-, sub, hsub, rfl, -⟩ := Wallet.mem_unused_iff.mp ha
          exact List.mem_map_of_mem hsub
  | output index isLocked =>
      obtain ⟨recent', hafter, hrecent'⟩ :=
        Seller.after_onOutputReceived hsynced recent index isLocked
      refine ⟨mw, recent', ?_, hsynced, ?_, hhanded⟩
      · simp only [step, hseller, hafter]
      · intro a ha
        rcases hrecent' a ha with ha | ha
        · exact hrecent a ha
        · exact ha
  | used index =>
      simp only [step]
      split
      · refine ⟨mw.markUsed index, recent, by rw [hseller]; rfl, hsynced, ?_, ?_⟩
        · simpa [MoneroWallet.markUsed, addresses_modify] using hrecent
        · simpa [MoneroWallet.markUsed, addresses_modify] using hhanded
      · exact ⟨mw, recent, hseller, hsynced, hrecent, hhanded⟩
  | created =>
      refine ⟨mw.createSubaddress m, recent, by rw [step, hseller]; rfl, hsynced, ?_, ?_⟩
      · intro a ha
        exact mem_addresses_createMany m 1 (hrecent a ha)
      · intro a ha
        exact mem_addresses_createMany m 1 (hhanded a ha)

theorem Shop.nodup_step {s : Shop} (e : Event) (hs : s.Inv) (hset : s.Settled e)
    (hnodup : s.handed.Nodup) : (s.step m e).handed.Nodup := by
  obtain ⟨mw, recent, hseller, hsynced, hrecent, hhanded⟩ := hs
  cases e with
  | order pick =>
      obtain ⟨a, hok, ha⟩ := Seller.onOrderReceived_ok m hsynced hrecent pick
      have hnew : a ∉ s.handed := by
        intro hmem
        apply hset a hmem
        rw [hseller, available_iff]
        -- among the candidates, an old address is an old subaddress
        obtain ⟨new, hsubs, -⟩ := mw.createMany_spec m 10
        have hdistinct := (mw.createMany m 10).distinct
        obtain ⟨hnot, sub, hsub, rfl, hused⟩ := Wallet.mem_unused_iff.mp ha
        rw [hsubs, addresses, List.map_append, List.nodup_append'] at hdistinct
        rw [hsubs, List.mem_append] at hsub
        rcases hsub with hsub | hsub
        · exact Wallet.mem_unused_iff.mpr ⟨hnot, sub, hsub, rfl, hused⟩
        · exact absurd (List.mem_map_of_mem hsub) (hdistinct.2.2 (hhanded _ hmem))
      simp only [step, hseller, hok, List.nodup_append', hnodup, true_and,
        List.nodup_singleton, List.disjoint_singleton]
      exact hnew
  | output _ _ => exact hnodup
  | used index =>
      simp only [step]
      split <;> exact hnodup
  | created => exact hnodup

theorem Shop.order_again {s : Shop} (hs : s.Inv) {a : Bytes}
    (ha : Available s.seller a) :
    ∃ pick, (s.step m (.order pick)).handed = s.handed ++ [a] := by
  obtain ⟨mw, recent, hseller, hsynced, hrecent, -⟩ := hs
  rw [hseller, available_iff] at ha
  obtain ⟨pick, hpick⟩ := Seller.onOrderReceived_pick m hsynced hrecent ha
  exact ⟨pick, by simp [step, hseller, hpick]⟩

/-- **Payment addresses**: in every run each order gets an address that is
available then; the orders of a run get different addresses when each comes
in after the earlier addresses have become used or recent; and where one of
these is still available, the next order may get it again. -/
theorem orders_served (mw : MoneroWallet) (hsynced : mw.isSynced = true)
    (es : List Event) :
    let s := run (Shop.step m) (Shop.start mw) es
    Along (Shop.step m) (Shop.Served m) (Shop.start mw) es
      ∧ (Along (Shop.step m) Shop.Settled (Shop.start mw) es → s.handed.Nodup)
      ∧ ∀ a ∈ s.handed, Available s.seller a →
          ∃ pick, (s.step m (.order pick)).handed = s.handed ++ [a] := by
  have hstart : (Shop.start mw).Inv :=
    ⟨mw, [], rfl, hsynced, by simp, by simp [Shop.start]⟩
  have hkeep : ∀ (s : Shop) e, s.Inv → (s.step m e).Inv := by
    intro s e hs
    exact Shop.inv_step m e hs
  refine ⟨?_, ?_, ?_⟩
  · -- every order, whatever came before it
    have hany : Along (Shop.step m) (fun _ _ => True) (Shop.start mw) es :=
      along_const_iff.mpr fun _ _ => trivial
    exact hany.of_inv (fun s e hs _ => hkeep s e hs)
      (fun s e hs _ => Shop.served m hs e) hstart
  · intro hsettled
    have hstep : ∀ (s : Shop) e, s.Inv ∧ s.handed.Nodup → s.Settled e →
        (s.step m e).Inv ∧ (s.step m e).handed.Nodup := by
      intro s e hs hset
      obtain ⟨hinv, hnodup⟩ := hs
      exact ⟨hkeep s e hinv, Shop.nodup_step m e hinv hset hnodup⟩
    exact (hsettled.run_inv hstep ⟨hstart, List.nodup_nil⟩).2
  · intro a _ ha
    exact Shop.order_again m (run_inv hkeep hstart es) ha

/-- A Monero whose addresses get longer and longer. -/
def growing : Monero where
  newAddress taken := List.replicate ((taken.map List.length).foldr max 0 + 1) 56
  newAddress_fresh taken := by
    have hle : ∀ a ∈ taken, a.length ≤ (taken.map List.length).foldr max 0 := by
      induction taken with
      | nil => simp
      | cons b taken ih =>
          intro a ha
          simp only [List.map_cons, List.foldr_cons]
          rcases List.mem_cons.mp ha with rfl | ha
          · exact Nat.le_max_left _ _
          · exact (ih a ha).trans (Nat.le_max_right _ _)
    intro hmem
    have hlen := hle _ hmem
    rw [List.length_replicate] at hlen
    omega

/-- A wallet with its primary address only. -/
def primary : MoneroWallet := ⟨[⟨[56], true⟩], by decide, true⟩

/-- The second order comes in when the first one is paid. -/
theorem orders_served_payment :
    (run (Shop.step growing) (Shop.start primary)
      [.order 0, .output 1 true, .order 0]).handed.Nodup := by
  refine (orders_served growing primary rfl [.order 0, .output 1 true, .order 0]).2.1 ?_
  let paid := run (Shop.step growing) (Shop.start primary) [.order 0, .output 1 true]
  have hrecent : ∀ a ∈ paid.handed,
      a ∈ (paid.seller.wallet.map Wallet.recentAddressList).getD [] := by decide
  refine ⟨nofun, trivial, ?_, trivial⟩
  rintro a ha ⟨w, mw, hw, -, hnot, -⟩
  have hmem : a ∈ (paid.seller.wallet.map Wallet.recentAddressList).getD [] := hrecent a ha
  have hwallet : paid.seller.wallet = some w := hw
  rw [hwallet] at hmem
  exact hnot hmem

/-- Two orders in a row, with the same pick, get the same address. -/
theorem orders_share :
    ¬ (run (Shop.step growing) (Shop.start primary) [.order 0, .order 0]).handed.Nodup := by
  decide

end Neroshop
