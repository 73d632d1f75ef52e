import TrackedDelivery.Proofs.Memory.Waking
/-!
# Clients of the store

Only a connect adds a client and only a close of it closes it. Clients are numbered in the order in
which they came, and one that is closed stays closed.
-/
namespace TrackedDelivery.Memory.Store

variable {b b' : Store} {gone : ℕ → Prop}

/-- No client is forgotten, and none that was closed is open again. -/
structure KeepsClients (b b' : Store) : Prop where
  length_le : b.clients.length ≤ b'.clients.length
  closed : ∀ c : ℕ, b.clients[c]? = some true → b'.clients[c]? = some true

theorem KeepsClients.of_eq (h : b'.clients = b.clients) : b.KeepsClients b' :=
  ⟨Nat.le_of_eq (congrArg _ h.symm), fun _ hc => h ▸ hc⟩

theorem KeepsClients.trans {b'' : Store} (h : b.KeepsClients b') (h' : b'.KeepsClients b'') :
    b.KeepsClients b'' :=
  ⟨Nat.le_trans h.length_le h'.length_le, fun c hc => h'.closed c (h.closed c hc)⟩

/-! ## What leaves clients alone -/

theorem sameClients_tryReceive (b : Store) (consumer : ℕ) :
    b.SameClients (b.tryReceive consumer).2 := by
  obtain ⟨_, _, h⟩ := b.frame_tryReceive consumer
  rw [h]
  exact ⟨rfl, rfl⟩

theorem sameClients_acknowledge (b : Store) (consumer : ℕ) (id : EntryId) :
    b.SameClients (b.acknowledge consumer id).2 := by
  obtain ⟨_, _, h⟩ := b.frame_acknowledge consumer id
  rw [h]
  exact ⟨rfl, rfl⟩

theorem sameClients_release (b : Store) (consumer : ℕ) :
    b.SameClients (b.release consumer) := by
  obtain ⟨_, _, h⟩ := b.frame_release consumer
  rw [h]
  exact ⟨rfl, rfl⟩

theorem sameClients_closeConsumer (b : Store) (consumer : ℕ) :
    b.SameClients (b.closeConsumer consumer) :=
  ⟨(b.sameClients_release consumer).clients, (b.sameClients_release consumer).count⟩

theorem sameClients_stimulate (b : Store) (stimulus : Stimulus) :
    b.SameClients (b.stimulate stimulus).2 := by
  cases stimulus with
  | publish topic key payload eventTime now =>
      change b.SameClients (b.publish topic key payload eventTime now).2
      unfold publish
      dsimp only
      split <;> exact ⟨rfl, rfl⟩
  | _ => exact ⟨rfl, rfl⟩

/-- An operation connects a client, closes one, or leaves all of them alone. -/
theorem Operation.client_cases (h : Operation gone b b') :
    (∃ options, b' = (b.connect options).2) ∨ (∃ client, b' = b.closeClient client) ∨
      b.SameClients b' := by
  cases h with
  | connect options => exact .inl ⟨options, rfl⟩
  | closeClient client => exact .inr (.inl ⟨client, rfl⟩)
  | subscribe client options => exact .inr (.inr (b.sameClients_subscribe client options))
  | receive consumer => exact .inr (.inr (b.sameClients_tryReceive consumer))
  | acknowledge consumer id => exact .inr (.inr (b.sameClients_acknowledge consumer id))
  | close consumer => exact .inr (.inr (b.sameClients_closeConsumer consumer))
  | drop _ => exact .inr (.inr (b.sameClients_release _))
  | stimulate stimulus => exact .inr (.inr (b.sameClients_stimulate stimulus))

/-! ## What becomes of clients -/

theorem keepsClients_closeClient (b : Store) (client : ℕ) :
    b.KeepsClients (b.closeClient client) := by
  constructor
  · rw [clients_closeClient, List.length_set]
  · intro c hc
    rw [clients_closeClient, List.getElem?_set]
    split
    · rename_i h
      rw [if_pos (h ▸ (List.getElem?_eq_some_iff.mp hc).1)]
    · exact hc

theorem keepsClients_connect (b : Store) (options : ClientOptions) :
    b.KeepsClients (b.connect options).2 := by
  rcases b.connect_cases options with ⟨cause, -, hclients⟩ | ⟨-, hclients⟩
  · exact .of_eq hclients
  · constructor
    · rw [hclients, List.length_append]
      omega
    · intro c hc
      rw [hclients, List.getElem?_append_left (List.getElem?_eq_some_iff.mp hc).1, hc]

theorem Operation.keepsClients (h : Operation gone b b') : b.KeepsClients b' := by
  rcases h.client_cases with ⟨options, rfl⟩ | ⟨client, rfl⟩ | hsame
  · exact b.keepsClients_connect options
  · exact b.keepsClients_closeClient client
  · exact .of_eq hsame.clients

theorem Operations.keepsClients (h : Operations gone b b') : b.KeepsClients b' := by
  induction h with
  | refl => exact .of_eq rfl
  | tail _ hlast ih => exact ih.trans hlast.keepsClients

end TrackedDelivery.Memory.Store
