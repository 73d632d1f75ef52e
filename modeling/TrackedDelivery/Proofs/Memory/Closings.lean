import TrackedDelivery.Proofs.Memory.Clients
import TrackedDelivery.Proofs.Memory.Isolation
import Mathlib.Data.List.Nodup
/-!
# Comings and closings

A client or a consumer is closed only by a call that names it. Which clients came between two states
of a broker and which were closed is seen from the two states, since a client that is closed stays
closed, and the broker's count goes up by one for each.
-/
namespace TrackedDelivery.Memory.Store

variable {b b' : Store} {σ : Scope} {gone : ℕ → Prop} {c : ℕ}

/-! ## What a scope spares -/

theorem Asks.client_cases (h : Asks σ b b') :
    (σ.connects ∧ ∃ options, b' = (b.connect options).2) ∨
      (∃ client, σ.client client ∧ b' = b.closeClient client) ∨ b.SameClients b' := by
  cases h with
  | connect options h => exact .inl ⟨h, options, rfl⟩
  | @closeClient client h => exact .inr (.inl ⟨client, h, rfl⟩)
  | subscribe client _ => exact .inr (.inr (b.sameClients_subscribe client _))
  | receive _ => exact .inr (.inr (b.sameClients_tryReceive _))
  | acknowledge id _ => exact .inr (.inr (b.sameClients_acknowledge _ id))
  | close _ => exact .inr (.inr (b.sameClients_closeConsumer _))
  | drop _ => exact .inr (.inr (b.sameClients_release _))
  | stimulate _ => exact .inr (.inr (b.sameClients_stimulate _))

theorem Asks.spares_client {closed : Bool} (h : Asks σ b b') (hc : ¬ σ.client c)
    (hb : b.clients[c]? = some closed) : b'.clients[c]? = some closed := by
  rcases h.client_cases with ⟨-, options, rfl⟩ | ⟨client, hclient, rfl⟩ | hsame
  · rcases b.connect_cases options with ⟨cause, -, hclients⟩ | ⟨-, hclients⟩
    · rwa [hclients]
    · rwa [hclients, List.getElem?_append_left (List.getElem?_eq_some_iff.mp hb).1]
  · have hne : client ≠ c := by
      rintro rfl
      exact hc hclient
    rwa [clients_closeClient, List.getElem?_set_ne hne]
  · rwa [hsame.clients]

theorem AsksAll.spares_client {closed : Bool} (h : AsksAll σ b b') (hc : ¬ σ.client c)
    (hb : b.clients[c]? = some closed) : b'.clients[c]? = some closed :=
  h.preserve (P := fun b => b.clients[c]? = some closed) (fun hasks => hasks.spares_client hc) hb

theorem consumers_acknowledge (b : Store) (consumer : ℕ) (id : EntryId) :
    (b.acknowledge consumer id).2.consumers = b.consumers := by
  obtain ⟨_, _, h⟩ := b.frame_acknowledge consumer id
  rw [h]

theorem Asks.keeps_attached {options : SubscribeOptions} (h : Asks σ b b') (hclosed : ¬ σ.closed c)
    (hdropped : ¬ σ.dropped c) (ha : b.attached? c = some options) :
    b'.attached? c = some options := by
  have hrelease : ∀ k, k ≠ c → (b.release k).attached? c = some options := by
    intro k hne
    rwa [attached?_release, if_neg (Ne.symm hne)]
  cases h with
  | connect client _ => rwa [attached?_congr (b.connect_quiet client).2]
  | @subscribe client newcomer _ =>
      rcases b.subscribe_cases client newcomer with ⟨e, -, haway⟩ | ⟨-, hattach⟩
      · rwa [attached?_congr haway.consumers]
      · have hlt := (List.getElem?_eq_some_iff.mp (attached?_eq_some.mp ha)).1
        rwa [hattach.attached?_after, if_neg (Nat.ne_of_lt hlt)]
  | @receive consumer _ =>
      rcases b.tryReceive_puts consumer with hquiet | ⟨o, s, -, hput⟩
      · rwa [attached?_congr hquiet.2]
      · rw [hput]
        exact ha
  | @acknowledge consumer id _ => rwa [attached?_congr (b.consumers_acknowledge consumer id)]
  | @close consumer hconsumer =>
      apply hrelease consumer
      rintro rfl
      exact hclosed hconsumer
  | @drop consumer hconsumer =>
      apply hrelease consumer
      rintro rfl
      exact hdropped hconsumer
  | closeClient _ => rwa [attached?_congr (b.closeClient_quiet _).2]
  | @stimulate stimulus _ =>
      cases stimulus with
      | publish topic key payload eventTime now =>
          have happends := b.appends_publish topic key payload eventTime now
          exact (attached?_congr happends.consumers c).trans ha
      | _ => exact ha

theorem AsksAll.keeps_attached {options : SubscribeOptions} (h : AsksAll σ b b')
    (hclosed : ¬ σ.closed c) (hdropped : ¬ σ.dropped c) (ha : b.attached? c = some options) :
    b'.attached? c = some options :=
  h.preserve (P := fun b => b.attached? c = some options)
    (fun hasks => hasks.keeps_attached hclosed hdropped) ha

/-- Clients come and are closed only where the scope has it so. -/
theorem Asks.keeps_clients (h : Asks σ b b') (hconnects : ¬ σ.connects)
    (hclient : ∀ c, ¬ σ.client c) : b'.clients = b.clients := by
  rcases h.client_cases with ⟨h, -⟩ | ⟨client, h, -⟩ | hsame
  · exact absurd h hconnects
  · exact absurd h (hclient client)
  · exact hsame.clients

theorem AsksAll.keeps_clients (h : AsksAll σ b b') (hconnects : ¬ σ.connects)
    (hclient : ∀ c, ¬ σ.client c) : b'.clients = b.clients :=
  h.preserve (P := fun b' => b'.clients = b.clients)
    (fun hasks hb => (hasks.keeps_clients hconnects hclient).trans hb) rfl

theorem Asks.clients_length (h : Asks σ b b') (hconnects : ¬ σ.connects) :
    b'.clients.length = b.clients.length := by
  rcases h.client_cases with ⟨h, -⟩ | ⟨client, -, rfl⟩ | hsame
  · exact absurd h hconnects
  · rw [clients_closeClient, List.length_set]
  · rw [hsame.clients]

theorem AsksAll.clients_length (h : AsksAll σ b b') (hconnects : ¬ σ.connects) :
    b'.clients.length = b.clients.length :=
  h.preserve (P := fun b' => b'.clients.length = b.clients.length)
    (fun hasks hb => (hasks.clients_length hconnects).trans hb) rfl

/-- Consumers come only with options that the scope has. -/
theorem Asks.consumers_length (h : Asks σ b b') (hoptions : ∀ options, ¬ σ.options options) :
    b'.consumers.length = b.consumers.length := by
  cases h with
  | connect options _ => rw [(b.connect_quiet options).2]
  | subscribe _ h => exact absurd h (hoptions _)
  | @receive consumer _ =>
      rcases b.tryReceive_puts consumer with hquiet | ⟨o, s, -, hput⟩
      · rw [hquiet.2]
      · rw [hput]
        rfl
  | acknowledge id _ => rw [b.consumers_acknowledge]
  | close _ | drop _ => exact b.length_release _
  | closeClient _ => rw [(b.closeClient_quiet _).2]
  | @stimulate stimulus _ =>
      cases stimulus with
      | publish topic key payload eventTime now =>
          exact congrArg _ (b.appends_publish topic key payload eventTime now).consumers
      | _ => rfl

theorem AsksAll.consumers_length (h : AsksAll σ b b') (hoptions : ∀ options, ¬ σ.options options) :
    b'.consumers.length = b.consumers.length :=
  h.preserve (P := fun b' => b'.consumers.length = b.consumers.length)
    (fun hasks hb => (hasks.consumers_length hoptions).trans hb) rfl

/-! ## Between two states -/

/-- The clients that came between two states. -/
def newClients (b b' : Store) : List ℕ :=
  List.range' b.clients.length (b'.clients.length - b.clients.length)

/-- The consumers that came between two states. -/
def newConsumers (b b' : Store) : List ℕ :=
  List.range' b.consumers.length (b'.consumers.length - b.consumers.length)

/-- What the broker counted closed clients up to between two states. -/
def closingCounts (b b' : Store) : List ℕ :=
  List.range' (b.closedClients + 1) (b'.closedClients - b.closedClients)

/-- The clients that were closed between two states. -/
def closings (b b' : Store) : List ℕ :=
  (List.range b'.clients.length).filter fun c =>
    b'.clients[c]? = some true ∧ b.clients[c]? ≠ some true

theorem mem_newClients : c ∈ newClients b b' ↔ b.clients.length ≤ c ∧ c < b'.clients.length := by
  rw [newClients, List.mem_range'_1]
  omega

theorem mem_newConsumers :
    c ∈ newConsumers b b' ↔ b.consumers.length ≤ c ∧ c < b'.consumers.length := by
  rw [newConsumers, List.mem_range'_1]
  omega

theorem nodup_newClients (b b' : Store) : (newClients b b').Nodup := List.nodup_range' ..

theorem mem_closings :
    c ∈ closings b b' ↔ b'.clients[c]? = some true ∧ b.clients[c]? ≠ some true := by
  rw [closings, List.mem_filter, List.mem_range, decide_eq_true_iff]
  constructor
  · exact And.right
  · exact fun h => ⟨(List.getElem?_eq_some_iff.mp h.1).1, h⟩

theorem length_newClients (b b' : Store) :
    (newClients b b').length = b'.clients.length - b.clients.length := by
  rw [newClients, List.length_range']

theorem newClients_of_eq (h : b'.clients = b.clients) : newClients b b' = [] := by
  rw [newClients, h, Nat.sub_self]
  rfl

theorem closings_of_eq (h : b'.clients = b.clients) : closings b b' = [] := by
  rw [List.eq_nil_iff_forall_not_mem]
  intro c hc
  rw [mem_closings, h] at hc
  exact hc.2 hc.1

theorem nodup_closings (b b' : Store) : (closings b b').Nodup := List.nodup_range.filter _

/-- What was closed in between was closed before a state in between or after it. -/
theorem closings_append {b'' : Store} (h : b.KeepsClients b') (h' : b'.KeepsClients b'') :
    (closings b b' ++ closings b' b'').Perm (closings b b'') := by
  have hdisjoint : (closings b b' ++ closings b' b'').Nodup := by
    refine List.nodup_append.mpr ⟨nodup_closings b b', nodup_closings b' b'', ?_⟩
    rintro c hc k hk rfl
    exact (mem_closings.mp hk).2 (mem_closings.mp hc).1
  refine (List.perm_ext_iff_of_nodup hdisjoint (nodup_closings b b'')).mpr fun c => ?_
  rw [List.mem_append, mem_closings, mem_closings, mem_closings]
  constructor
  · rintro (⟨hclosed, hopen⟩ | ⟨hclosed, hopen⟩)
    · exact ⟨h'.closed c hclosed, hopen⟩
    · exact ⟨hclosed, fun hold => hopen (h.closed c hold)⟩
  · rintro ⟨hclosed, hopen⟩
    by_cases hmid : b'.clients[c]? = some true
    · exact .inl ⟨hmid, hopen⟩
    · exact .inr ⟨hclosed, hmid⟩

/-! ## The count of closed clients -/

/-- The broker counts the clients that are closed. -/
def CountsClosed (b : Store) : Prop := b.closedClients = b.clients.count true

theorem CountsClosed.congr (h : b.CountsClosed) (hsame : b.SameClients b') :
    b'.CountsClosed := by
  rw [CountsClosed, hsame.count, hsame.clients]
  exact h

theorem CountsClosed.connect (h : b.CountsClosed) (options : ClientOptions) :
    (b.connect options).2.CountsClosed := by
  have hcount : (b.connect options).2.closedClients = b.closedClients := by
    unfold Store.connect
    dsimp only
    split <;> rfl
  rcases b.connect_cases options with ⟨cause, -, hclients⟩ | ⟨-, hclients⟩
  · exact h.congr ⟨hclients, hcount⟩
  · rw [CountsClosed, hcount, hclients, List.count_append]
    exact h

theorem CountsClosed.closeClient (h : b.CountsClosed) (client : ℕ) :
    (b.closeClient client).CountsClosed := by
  unfold Store.closeClient
  split
  · exact h
  · rename_i hopen
    rw [List.getD_eq_getElem?_getD] at hopen
    cases hc : b.clients[client]? with
    | none =>
        rw [hc] at hopen
        exact absurd rfl hopen
    | some closed =>
        rw [hc, Option.getD_some, Bool.not_eq_true] at hopen
        obtain ⟨hlt, hget⟩ := List.getElem?_eq_some_iff.mp hc
        rw [CountsClosed, List.count_set hlt, hget, hopen]
        exact congrArg (· + 1) h

theorem Operation.countsClosed (h : Operation gone b b') (hb : b.CountsClosed) :
    b'.CountsClosed := by
  rcases h.client_cases with ⟨options, rfl⟩ | ⟨client, rfl⟩ | hsame
  · exact hb.connect options
  · exact hb.closeClient client
  · exact hb.congr hsame

/-- To count the elements of a list is to count their places. -/
theorem countP_eq_length_filter_range {α : Type} (p : α → Bool) (l : List α) :
    l.countP p = ((List.range l.length).filter fun i => l[i]?.any p).length := by
  have hplaces : l.map some = (List.range l.length).map (l[·]?) := by
    apply List.ext_getElem
    · simp
    · intro i hi hi'
      simp
  have hcount := congrArg (List.countP (Option.any p)) hplaces
  rw [List.countP_map, List.countP_map] at hcount
  rw [← List.countP_eq_length_filter]
  exact hcount

theorem count_true (l : List Bool) :
    l.count true = ((List.range l.length).filter fun i => l[i]? = some true).length := by
  rw [List.count, countP_eq_length_filter_range]
  refine congrArg List.length (List.filter_congr fun i _ => ?_)
  cases l[i]? <;> simp

theorem closedClients_eq (hb : b.CountsClosed) (hb' : b'.CountsClosed) (h : b.KeepsClients b') :
    b'.closedClients = b.closedClients + (closings b b').length := by
  rw [hb, hb', count_true, count_true, ← List.length_append]
  apply List.Perm.length_eq
  apply (List.perm_ext_iff_of_nodup (List.nodup_range.filter _) _).mpr
  · intro c
    rw [List.mem_append, mem_closings, List.mem_filter, List.mem_filter, List.mem_range,
      List.mem_range, decide_eq_true_iff, decide_eq_true_iff]
    constructor
    · rintro ⟨-, hc⟩
      by_cases hold : b.clients[c]? = some true
      · exact .inl ⟨(List.getElem?_eq_some_iff.mp hold).1, hold⟩
      · exact .inr ⟨hc, hold⟩
    · rintro (⟨-, hc⟩ | ⟨hc, -⟩)
      · exact ⟨(List.getElem?_eq_some_iff.mp (h.closed c hc)).1, h.closed c hc⟩
      · exact ⟨(List.getElem?_eq_some_iff.mp hc).1, hc⟩
  · refine List.nodup_append.mpr ⟨List.nodup_range.filter _, nodup_closings b b', ?_⟩
    rintro c hc k hk rfl
    exact (mem_closings.mp hk).2 (decide_eq_true_iff.mp (List.mem_filter.mp hc).2)

/-- Between two states the broker counts as many clients as were closed. -/
theorem length_closingCounts (hb : b.CountsClosed) (hb' : b'.CountsClosed) (h : b.KeepsClients b') :
    (closingCounts b b').length = (closings b b').length := by
  rw [closingCounts, List.length_range', closedClients_eq hb hb' h, Nat.add_sub_cancel_left]

end TrackedDelivery.Memory.Store
