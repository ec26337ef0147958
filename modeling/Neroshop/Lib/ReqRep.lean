import Mathlib.Data.List.Nodup
import Mathlib.Logic.Function.Basic
import Neroshop.Lib.Rep

/-!
# Request and reply over a network

Clients with request sockets, one server with a reply socket, and the
messages on their way between them. A request socket alternates: it sends,
and then it waits for the reply. The reply socket keeps the sender of the
request that it owes a reply. Messages of different clients overtake each
other, so which of them arrives next is an argument.

`answered` is the history of the reply socket and `delivered` is what the
clients got, each with the request that the client was waiting on.
-/

namespace Lib.ReqRep

open Lib.Rep (Socket)

/-- The sockets and the messages between them. -/
structure Net (C M : Type*) where
  -- the request to which the client waits for a reply
  waiting : C → Option M
  -- requests on their way
  requests : List (C × M)
  -- the request that the server has taken and not answered
  owing : Option (C × M)
  -- client, request and reply
  answered : List (C × M × M)
  -- replies on their way
  replies : List (C × M)
  delivered : List (C × M × M)

variable {C M : Type*} [DecidableEq C]

namespace Net

/-- Nobody has sent anything. -/
def start : Net C M := ⟨fun _ => none, [], none, [], [], []⟩

/-- A client sends a request; `none` is the state error of its socket. -/
def send (n : Net C M) (c : C) (m : M) : Option (Net C M) :=
  match n.waiting c with
  | some _ => none
  | none =>
      some { n with
        waiting := Function.update n.waiting c (some m)
        requests := n.requests ++ [(c, m)] }

/-- The server takes the request at `k`, and waits if there is none; `none` is
the state error of its socket. -/
def recv (n : Net C M) (k : Nat) : Option (Net C M) :=
  match n.owing with
  | some _ => none
  | none =>
      match n.requests[k]? with
      | none => some n
      | some p => some { n with requests := n.requests.eraseIdx k, owing := some p }

/-- The server sends its reply; `none` is the state error of its socket. -/
def reply (n : Net C M) (r : M) : Option (Net C M) :=
  match n.owing with
  | none => none
  | some (c, m) =>
      some { n with
        owing := none
        answered := n.answered ++ [(c, m, r)]
        replies := n.replies ++ [(c, r)] }

/-- The reply at `k` arrives. A client that waits for none drops it. -/
def deliver (n : Net C M) (k : Nat) : Net C M :=
  match n.replies[k]? with
  | none => n
  | some (c, r) =>
      match n.waiting c with
      | none => { n with replies := n.replies.eraseIdx k }
      | some m =>
          { n with
            waiting := Function.update n.waiting c none
            replies := n.replies.eraseIdx k
            delivered := n.delivered ++ [(c, m, r)] }

omit [DecidableEq C] in
theorem reply_eq {n : Net C M} {c : C} {m : M} (h : n.owing = some (c, m)) (r : M) :
    n.reply r = some { n with
      owing := none
      answered := n.answered ++ [(c, m, r)]
      replies := n.replies ++ [(c, r)] } := by
  simp only [reply, h]

/-- The server's end of the network. -/
def server (n : Net C M) : Socket M :=
  ⟨n.answered.map Prod.snd, n.owing.map Prod.snd⟩

/-! ## Where the messages are -/

/-- The clients whose request or reply is somewhere in the network. -/
def tokens (n : Net C M) : List C :=
  n.requests.map Prod.fst ++ (n.owing.toList.map Prod.fst ++ n.replies.map Prod.fst)

omit [DecidableEq C] in
theorem mem_tokens {n : Net C M} {c : C} :
    c ∈ n.tokens ↔ c ∈ n.requests.map Prod.fst
      ∨ (∃ m, n.owing = some (c, m)) ∨ c ∈ n.replies.map Prod.fst := by
  simp [tokens]

end Net

/-- The exchanges that the replies on their way complete. -/
def onTheWay (waiting : C → Option M) (replies : List (C × M)) : List (C × M × M) :=
  replies.filterMap fun p => (waiting p.1).map fun m => (p.1, m, p.2)

/-- The exchanges of one client. -/
def exchanges (c : C) (xs : List (C × M × M)) : List (C × M × M) :=
  xs.filter (·.1 = c)

section Exchanges

variable {c : C} {xs ys : List (C × M × M)} {waiting : C → Option M}
  {replies : List (C × M)}

@[simp] theorem exchanges_append :
    exchanges c (xs ++ ys) = exchanges c xs ++ exchanges c ys := List.filter_append xs ys

@[simp] theorem exchanges_own (m r : M) : exchanges c [(c, m, r)] = [(c, m, r)] := by
  simp [exchanges]

theorem exchanges_other {d : C} (h : d ≠ c) (m r : M) : exchanges c [(d, m, r)] = [] := by
  simp [exchanges, h]

omit [DecidableEq C] in
@[simp] theorem onTheWay_append (replies replies' : List (C × M)) :
    onTheWay waiting (replies ++ replies')
      = onTheWay waiting replies ++ onTheWay waiting replies' := List.filterMap_append

omit [DecidableEq C] in
theorem onTheWay_one {r m : M} (h : waiting c = some m) :
    onTheWay waiting [(c, r)] = [(c, m, r)] := by
  simp [onTheWay, h]

omit [DecidableEq C] in
theorem mem_of_mem_onTheWay {x : C × M × M} (h : x ∈ onTheWay waiting replies) :
    x.1 ∈ replies.map Prod.fst := by
  simp only [onTheWay, List.mem_filterMap, Option.map_eq_some_iff] at h
  obtain ⟨p, hp, m, -, rfl⟩ := h
  exact List.mem_map_of_mem hp

/-- Nothing is on its way to a client without a message. -/
theorem exchanges_onTheWay_of_notMem (h : c ∉ replies.map Prod.fst) :
    exchanges c (onTheWay waiting replies) = [] := by
  rw [exchanges, List.filter_eq_nil_iff]
  intro x hx heq
  simp only [decide_eq_true_eq] at heq
  exact h (heq ▸ mem_of_mem_onTheWay hx)

/-- What one client waits for does not concern the replies to others. -/
theorem onTheWay_update (h : c ∉ replies.map Prod.fst) (m : Option M) :
    onTheWay (Function.update waiting c m) replies = onTheWay waiting replies := by
  apply List.filterMap_congr
  intro p hp
  have hne : p.1 ≠ c := by
    rintro rfl
    exact h (List.mem_map_of_mem hp)
  rw [Function.update_of_ne hne]

/-- A reply is the only one to its client, so it goes in front. -/
theorem exchanges_onTheWay_middle {m r : M} {l₁ l₂ : List (C × M)} (d : C)
    (hm : waiting c = some m) (hrest : c ∉ (l₁ ++ l₂).map Prod.fst) :
    exchanges d (onTheWay waiting (l₁ ++ (c, r) :: l₂))
      = exchanges d [(c, m, r)] ++ exchanges d (onTheWay waiting (l₁ ++ l₂)) := by
  have hway : onTheWay waiting (l₁ ++ (c, r) :: l₂)
      = onTheWay waiting l₁ ++ ([(c, m, r)] ++ onTheWay waiting l₂) := by
    rw [← List.singleton_append, onTheWay_append, onTheWay_append, onTheWay_one hm]
  rw [hway, onTheWay_append]
  simp only [exchanges_append]
  by_cases hd : c = d
  · subst hd
    rw [List.map_append, List.mem_append, not_or] at hrest
    rw [exchanges_onTheWay_of_notMem hrest.1, exchanges_onTheWay_of_notMem hrest.2]
    rfl
  · rw [exchanges_other hd]
    rfl

/-- At most one reply is on its way to a client. -/
theorem length_exchanges_onTheWay_le (h : (replies.map Prod.fst).Nodup) :
    (exchanges c (onTheWay waiting replies)).length ≤ 1 := by
  induction replies with
  | nil => simp [onTheWay, exchanges]
  | cons p replies ih =>
      rw [List.map_cons, List.nodup_cons] at h
      obtain ⟨hnew, hrest⟩ := h
      have hsplit : onTheWay waiting (p :: replies)
          = onTheWay waiting [p] ++ onTheWay waiting replies := onTheWay_append [p] replies
      rw [hsplit, exchanges_append]
      by_cases hp : p.1 = c
      · have hnil : exchanges c (onTheWay waiting replies) = [] :=
          exchanges_onTheWay_of_notMem (hp ▸ hnew)
        rw [hnil, List.append_nil]
        exact Nat.le_trans (List.length_filter_le _ _) (List.length_filterMap_le _ [p])
      · have hnil : exchanges c (onTheWay waiting [p]) = [] := by
          apply exchanges_onTheWay_of_notMem
          simpa using Ne.symm hp
        rw [hnil, List.nil_append]
        exact ih hrest

end Exchanges

/-- What every run of the network keeps. -/
structure Net.Inv (n : Net C M) : Prop where
  -- a client has at most one message in the network
  once : n.tokens.Nodup
  waiting_iff : ∀ c, c ∈ n.tokens ↔ (n.waiting c).isSome
  requested : ∀ p ∈ n.requests, n.waiting p.1 = some p.2
  owed : ∀ p, n.owing = some p → n.waiting p.1 = some p.2
  -- what was answered has been delivered, or is on its way
  matched : ∀ c, exchanges c n.answered
    = exchanges c n.delivered ++ exchanges c (onTheWay n.waiting n.replies)

theorem split_at {α : Type*} {xs : List α} {k : Nat} {x : α} (h : xs[k]? = some x) :
    ∃ l₁ l₂, xs = l₁ ++ x :: l₂ ∧ xs.eraseIdx k = l₁ ++ l₂ := by
  obtain ⟨hk, rfl⟩ := List.getElem?_eq_some_iff.mp h
  refine ⟨xs.take k, xs.drop (k + 1), ?_, List.eraseIdx_eq_take_drop_succ xs k⟩
  rw [← List.drop_eq_getElem_cons hk, List.take_append_drop]

namespace Net

variable {n n' : Net C M} {c : C} {m r : M} {k : Nat}

theorem inv_start : (start : Net C M).Inv :=
  ⟨List.nodup_nil, by simp [tokens, start], by simp [start], by simp [start],
    by simp [start, exchanges, onTheWay]⟩

theorem Inv.notMem_tokens (h : n.Inv) (hc : n.waiting c = none) : c ∉ n.tokens := by
  intro hin
  rw [h.waiting_iff, hc] at hin
  cases hin

omit [DecidableEq C] in
theorem notMem_replies (h : c ∉ n.tokens) : c ∉ n.replies.map Prod.fst := by
  intro hin
  exact h (mem_tokens.mpr (.inr (.inr hin)))

/-! ## One operation -/

theorem Inv.send (h : n.Inv) (hsend : n.send c m = some n') : n'.Inv := by
  unfold Net.send at hsend
  split at hsend
  · cases hsend
  next hc =>
  cases hsend
  have hnew := h.notMem_tokens hc
  have hperm : ({ n with
      waiting := Function.update n.waiting c (some m)
      requests := n.requests ++ [(c, m)] } : Net C M).tokens.Perm (c :: n.tokens) := by
    simp only [tokens, List.map_append, List.map_cons, List.map_nil, List.append_assoc,
      List.singleton_append]
    exact List.perm_middle
  have hold : ∀ p : C × M, p.1 ∈ n.tokens →
      Function.update n.waiting c (some m) p.1 = n.waiting p.1 := by
    intro p hp
    apply Function.update_of_ne
    rintro rfl
    exact hnew hp
  refine ⟨?_, ?_, ?_, ?_, ?_⟩
  · exact hperm.nodup_iff.mpr (List.nodup_cons.mpr ⟨hnew, h.once⟩)
  · intro d
    rw [hperm.mem_iff, List.mem_cons, h.waiting_iff]
    by_cases hd : d = c
    · simp [hd]
    · simp [hd]
  · intro p hp
    rcases List.mem_append.mp hp with hp | hp
    · exact (hold p (mem_tokens.mpr (.inl (List.mem_map_of_mem hp)))).trans
        (h.requested p hp)
    · rw [List.mem_singleton.mp hp]
      exact Function.update_self c (some m) n.waiting
  · intro p hp
    exact (hold p (mem_tokens.mpr (.inr (.inl ⟨p.2, hp⟩)))).trans (h.owed p hp)
  · intro d
    show _ = _ ++ exchanges d (onTheWay (Function.update n.waiting c (some m)) n.replies)
    rw [onTheWay_update (notMem_replies hnew)]
    exact h.matched d

theorem Inv.recv (h : n.Inv) (hrecv : n.recv k = some n') : n'.Inv := by
  unfold Net.recv at hrecv
  split at hrecv
  · cases hrecv
  next howing =>
  split at hrecv
  · cases hrecv
    exact h
  next p hp =>
  cases hrecv
  obtain ⟨l₁, l₂, hsplit, herase⟩ := split_at hp
  have hperm : (n.requests.map Prod.fst).Perm
      ((n.requests.eraseIdx k).map Prod.fst ++ [p.1]) := by
    rw [herase, hsplit, List.map_append, List.map_append, List.map_cons]
    exact List.perm_middle.trans (List.perm_append_singleton _ _).symm
  have htokens : n.tokens.Perm
      ({ n with requests := n.requests.eraseIdx k, owing := some p } : Net C M).tokens := by
    simp only [tokens, howing, Option.toList_none, List.map_nil, List.nil_append,
      Option.toList_some, List.map_cons, ← List.append_assoc]
    exact hperm.append_right _
  refine ⟨htokens.nodup_iff.mp h.once, ?_, ?_, ?_, h.matched⟩
  · intro d
    rw [← htokens.mem_iff]
    exact h.waiting_iff d
  · intro q hq
    exact h.requested q (List.mem_of_mem_eraseIdx hq)
  · intro q hq
    cases hq
    exact h.requested p (List.mem_of_getElem? hp)

theorem Inv.reply (h : n.Inv) (hreply : n.reply r = some n') : n'.Inv := by
  unfold Net.reply at hreply
  split at hreply
  · cases hreply
  next c m howing =>
  cases hreply
  have htokens : n.tokens.Perm ({ n with
      owing := none
      answered := n.answered ++ [(c, m, r)]
      replies := n.replies ++ [(c, r)] } : Net C M).tokens := by
    simp only [tokens, howing, Option.toList_some, Option.toList_none, List.map_cons,
      List.map_nil, List.map_append, List.nil_append]
    exact List.perm_append_comm.append_left _
  refine ⟨htokens.nodup_iff.mp h.once, ?_, h.requested, by simp, ?_⟩
  · intro d
    rw [← htokens.mem_iff]
    exact h.waiting_iff d
  · intro d
    show exchanges d (n.answered ++ [(c, m, r)]) = exchanges d n.delivered
      ++ exchanges d (onTheWay n.waiting (n.replies ++ [(c, r)]))
    rw [onTheWay_append, onTheWay_one (h.owed (c, m) howing), exchanges_append,
      exchanges_append, h.matched d, List.append_assoc]

theorem Inv.deliver (h : n.Inv) (k : Nat) : (n.deliver k).Inv := by
  unfold Net.deliver
  split
  · exact h
  next c r hr =>
  obtain ⟨l₁, l₂, hsplit, herase⟩ := split_at hr
  have hc : c ∈ n.tokens :=
    mem_tokens.mpr (.inr (.inr (List.mem_map_of_mem (List.mem_of_getElem? hr))))
  obtain ⟨m, hm⟩ := Option.isSome_iff_exists.mp ((h.waiting_iff c).mp hc)
  rw [hm]
  show Net.Inv { n with
    waiting := Function.update n.waiting c none
    replies := n.replies.eraseIdx k
    delivered := n.delivered ++ [(c, m, r)] }
  generalize hn' : ({ n with
    waiting := Function.update n.waiting c none
    replies := n.replies.eraseIdx k
    delivered := n.delivered ++ [(c, m, r)] } : Net C M) = n'
  have htokens : n.tokens.Perm (c :: n'.tokens) := by
    rw [← hn', tokens, tokens, herase, hsplit, List.map_append, List.map_append,
      List.map_cons]
    simp only [← List.append_assoc]
    exact List.perm_middle
  obtain ⟨hgone, hnodup⟩ := List.nodup_cons.mp (htokens.nodup_iff.mp h.once)
  have hold : ∀ d ∈ n'.tokens, n'.waiting d = n.waiting d := by
    intro d hd
    rw [← hn']
    apply Function.update_of_ne
    rintro rfl
    exact hgone hd
  refine ⟨hnodup, ?_, ?_, ?_, ?_⟩
  · intro d
    by_cases hd : d = c
    · subst hd
      rw [← hn']
      simpa [hn'] using hgone
    · have hsame : n'.waiting d = n.waiting d := by
        rw [← hn']
        exact Function.update_of_ne hd _ _
      rw [hsame, ← h.waiting_iff, htokens.mem_iff, List.mem_cons, or_iff_right hd]
  · intro p hp
    rw [hold p.1 (mem_tokens.mpr (.inl (List.mem_map_of_mem hp)))]
    subst hn'
    exact h.requested p hp
  · intro p hp
    rw [hold p.1 (mem_tokens.mpr (.inr (.inl ⟨p.2, hp⟩)))]
    subst hn'
    exact h.owed p hp
  · intro d
    have hrest : c ∉ (l₁ ++ l₂).map Prod.fst := by
      rw [← herase]
      subst hn'
      exact notMem_replies hgone
    have hone := exchanges_onTheWay_middle d (r := r) hm hrest
    subst hn'
    show exchanges d n.answered = exchanges d (n.delivered ++ [(c, m, r)])
      ++ exchanges d (onTheWay (Function.update n.waiting c none) (n.replies.eraseIdx k))
    rw [herase, onTheWay_update hrest, h.matched d, hsplit, hone, exchanges_append,
      List.append_assoc]

/-! ## What a client gets -/

/-- The client has got the replies to its own requests, in order and once
each; one may be missing, and only while the client waits. -/
def Received (n : Net C M) (c : C) : Prop :=
  ∃ missing, exchanges c n.answered = exchanges c n.delivered ++ missing
    ∧ missing.length ≤ 1 ∧ (n.waiting c = none → missing = [])

theorem Inv.received (h : n.Inv) (c : C) : n.Received c := by
  have hnodup := h.once
  rw [tokens, ← List.append_assoc] at hnodup
  refine ⟨_, h.matched c, length_exchanges_onTheWay_le hnodup.of_append_right, ?_⟩
  intro hc
  exact exchanges_onTheWay_of_notMem (notMem_replies (h.notMem_tokens hc))

/-- What a client got was answered. -/
theorem Inv.answered (h : n.Inv) {a : C × M × M} (ha : a ∈ n.delivered) : a ∈ n.answered := by
  obtain ⟨missing, hanswered, -, -⟩ := h.received a.1
  have hin : a ∈ exchanges a.1 n.answered := by
    rw [hanswered]
    exact List.mem_append_left _ (List.mem_filter.mpr ⟨ha, by simp⟩)
  exact (List.mem_filter.mp hin).1

/-! ## Progress -/

/-- The operations of the server and of the network that are left to do. -/
def work (n : Net C M) : Nat :=
  3 * n.requests.length + 2 * n.owing.toList.length + n.replies.length

omit [DecidableEq C] in
theorem work_recv (h : n.owing = none) {k : Nat} (hk : k < n.requests.length) :
    ∃ n', n.recv k = some n' ∧ n'.work + 1 = n.work := by
  refine ⟨_, by simp only [recv, h, List.getElem?_eq_getElem hk]; rfl, ?_⟩
  simp only [work, h, List.length_eraseIdx_of_lt hk, Option.toList_some, Option.toList_none,
    List.length_singleton, List.length_nil]
  omega

omit [DecidableEq C] in
theorem work_reply {p : C × M} (h : n.owing = some p) (r : M) :
    ∃ n', n.reply r = some n' ∧ n'.work + 1 = n.work := by
  obtain ⟨c, m⟩ := p
  refine ⟨_, reply_eq h r, ?_⟩
  simp only [work, h, Option.toList_some, Option.toList_none, List.length_append,
    List.length_singleton, List.length_nil]
  omega

theorem work_deliver {k : Nat} (hk : k < n.replies.length) :
    (n.deliver k).work + 1 = n.work := by
  have hlen := List.length_eraseIdx_of_lt hk
  unfold deliver work
  rw [List.getElem?_eq_getElem hk]
  dsimp only
  split <;> dsimp only <;> omega

/-- Somebody waits exactly while something is left to do. -/
theorem Inv.busy_iff (h : n.Inv) : n.work ≠ 0 ↔ ∃ c, n.waiting c ≠ none := by
  have hlength : n.tokens.length
      = n.requests.length + (n.owing.toList.length + n.replies.length) := by
    simp only [tokens, List.length_append, List.length_map]
  have hidle : n.work = 0 ↔ n.tokens = [] := by
    rw [← List.length_eq_zero_iff, hlength, work]
    omega
  have hwaits : ∀ c, n.waiting c ≠ none ↔ c ∈ n.tokens := by
    intro c
    rw [h.waiting_iff, Option.isSome_iff_ne_none]
  simp only [hwaits, Ne, hidle, List.eq_nil_iff_forall_not_mem, not_forall, not_not]

end Net

end Lib.ReqRep
