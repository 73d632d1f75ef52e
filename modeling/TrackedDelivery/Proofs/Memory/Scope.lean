import TrackedDelivery.Proofs.Memory.Waking
/-!
# What is asked of the broker

Whatever a deployment does to the broker it asks for by calls, one after another. A scope says which
calls may be among them, so that what a call cannot do is known of all that stays within the scope.
-/
namespace TrackedDelivery.Memory.Store

/-- Whether clients may be connected, through which consumers messages may be asked for and
acknowledged, which consumers may be closed or dropped and which clients closed, what a consumer may
be attached with, and what else may happen. -/
structure Scope where
  connects : Prop := False
  consumer : ℕ → Prop := fun _ => False
  closed : ℕ → Prop := fun _ => False
  dropped : ℕ → Prop := fun _ => False
  client : ℕ → Prop := fun _ => False
  options : SubscribeOptions → Prop := fun _ => False
  stimulus : Stimulus → Prop := fun _ => False

variable {b b' : Store} {σ : Scope}

/-- One call on the broker that stays within a scope. -/
inductive Asks (σ : Scope) : Store → Store → Prop
  | connect (b : Store) (options : ClientOptions) (h : σ.connects) :
      Asks σ b (b.connect options).2
  | subscribe (b : Store) (client : ℕ) {options : SubscribeOptions} (h : σ.options options) :
      Asks σ b (b.subscribe client options).2
  | receive (b : Store) {consumer : ℕ} (h : σ.consumer consumer) :
      Asks σ b (b.tryReceive consumer).2
  | acknowledge (b : Store) {consumer : ℕ} (id : EntryId) (h : σ.consumer consumer) :
      Asks σ b (b.acknowledge consumer id).2
  | close (b : Store) {consumer : ℕ} (h : σ.closed consumer) :
      Asks σ b (b.closeConsumer consumer)
  | drop (b : Store) {consumer : ℕ} (h : σ.dropped consumer) :
      Asks σ b (b.release consumer)
  | closeClient (b : Store) {client : ℕ} (h : σ.client client) :
      Asks σ b (b.closeClient client)
  | stimulate (b : Store) {stimulus : Stimulus} (h : σ.stimulus stimulus) :
      Asks σ b (b.stimulate stimulus).2

/-- Calls within a scope, one after another. -/
abbrev AsksAll (σ : Scope) : Store → Store → Prop := Relation.ReflTransGen (Asks σ)

theorem Asks.once (h : Asks σ b b') : AsksAll σ b b' := .single h

theorem Asks.operation {gone : ℕ → Prop} (hgone : ∀ c, σ.dropped c → gone c)
    (h : Asks σ b b') : Operation gone b b' := by
  cases h with
  | connect options _ => exact .connect b options
  | subscribe client _ => exact .subscribe b client _
  | receive _ => exact .receive b _
  | acknowledge id _ => exact .acknowledge b _ id
  | close _ => exact .close b _
  | drop h => exact .drop b (hgone _ h)
  | closeClient _ => exact .closeClient b _
  | stimulate _ => exact .stimulate b _

theorem AsksAll.operations {gone : ℕ → Prop} (hgone : ∀ c, σ.dropped c → gone c)
    (h : AsksAll σ b b') : Operations gone b b' := by
  induction h with
  | refl => exact .refl
  | tail _ hlast ih => exact ih.tail (hlast.operation hgone)

/-- What every call of a scope keeps, calls one after another keep. -/
theorem AsksAll.preserve {P : Store → Prop}
    (hP : ∀ {b b' : Store}, Asks σ b b' → P b → P b') (h : AsksAll σ b b') (hb : P b) :
    P b' := by
  induction h with
  | refl => exact hb
  | tail _ hlast ih => exact hP hlast ih

end TrackedDelivery.Memory.Store
