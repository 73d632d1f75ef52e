import TrackedDelivery.Proofs.Deployment.Apart
import TrackedDelivery.Proofs.Deployment.Opening
/-!
# What a source gets it gives back

Clients come for a source where it is opened, and where it is opened or torn down they are closed.
What it has and what comes make up what is closed and what it has then, at every such step and so
over every run. How many clients come is seen from the answers of the opens, and how many are closed
from the broker's own count.
-/
namespace TrackedDelivery

/-- Steps by which others than a source get clients and consumers, or close clients. -/
def Step.Elsewhere (name : String) : Step Memory.Store → Prop
  | .openSource source _ _ | .teardown source => source ≠ name
  | .connect .. | .subscribe .. | .closeClient _ => True
  | _ => False

instance (name : String) : DecidablePred (Step.Elsewhere name)
  | .openSource .. | .teardown _ => inferInstanceAs (Decidable (_ ≠ name))
  | .connect .. | .subscribe .. | .closeClient _ => .isTrue trivial
  | .create .. | .configure .. | .hold .. | .ask .. | .start .. | .poll _ | .cancel _
  | .closeTracker _ | .drop .. | .receive _ | .acknowledge .. | .closeConsumer _ | .track ..
  | .stimulate _ => .isFalse id

end TrackedDelivery

namespace TrackedDelivery.Deployment

open Memory Memory.Store

variable {d after : Deployment Store} {name : String} {session : Session Store} {s : Step Store}
  {c : ℕ}

/-! ## Clients at one step -/

theorem Apart.mem_endedClients (h : d.Apart) : (d.endedClients name)[c]? = some true ↔
    d.broker.clients[c]? = some true ∨ c ∈ d.sessionClients name := by
  cases hsession : d.session? name with
  | none =>
      rw [endedClients_of_none hsession, sessionClients, hsession]
      simp
  | some session =>
      have hopen := h.client_open name session hsession
      have hlt := (List.getElem?_eq_some_iff.mp hopen).1
      rw [endedClients_of_some hsession, mem_sessionClients, List.getElem?_set]
      by_cases hc : session.clientNumber = c
      · simp only [hc, if_true, if_pos (hc ▸ hlt), true_iff]
        exact .inr ⟨session, hsession, hc⟩
      · rw [if_neg hc]
        constructor
        · exact .inl
        · rintro (hclosed | ⟨session', hsession', hc'⟩)
          · exact hclosed
          · cases hsession.symm.trans hsession'
            exact absurd hc' hc

theorem Apart.not_closed (h : d.Apart) (hc : c ∈ d.sessionClients name) :
    d.broker.clients[c]? = some false := by
  obtain ⟨session, hsession, rfl⟩ := mem_sessionClients.mp hc
  exact h.client_open name session hsession

theorem sessionClients_of_none (h : d.session? name = none) : d.sessionClients name = [] := by
  rw [sessionClients, h]
  rfl

theorem nodup_sessionClients (d : Deployment Store) (name : String) :
    (d.sessionClients name).Nodup := by
  unfold sessionClients
  cases (d.session? name).map (·.clientNumber) with
  | none => exact .nil
  | some client => exact List.nodup_singleton client

theorem newClients_of_append {clients : List Bool} {closed : Bool}
    (hlength : clients.length = d.broker.clients.length)
    (h : after.broker.clients = clients ++ [closed]) :
    newClients d.broker after.broker = [d.broker.clients.length] := by
  rw [newClients, h, List.length_append, hlength, Nat.add_sub_cancel_left]
  rfl

/-- The client of a session that has ended is closed, and nobody else's. -/
theorem Apart.closings_perm (h : d.Apart) {last : List Bool}
    (hclients : after.broker.clients = d.endedClients name ++ last) :
    (closings d.broker after.broker).Perm (d.sessionClients name ++
      (newClients d.broker after.broker).filter (after.broker.clients[·]? = some true)) := by
  have hlength := length_endedClients d name
  have hlt : ∀ c ∈ d.sessionClients name, c < d.broker.clients.length := fun c hc =>
    (List.getElem?_eq_some_iff.mp (h.not_closed hc)).1
  refine (List.perm_ext_iff_of_nodup (nodup_closings _ _) ?_).mpr fun c => ?_
  · refine List.nodup_append.mpr ⟨nodup_sessionClients d name,
      (nodup_newClients _ _).filter _, ?_⟩
    rintro c hc k hk rfl
    have hle := (mem_newClients.mp (List.mem_filter.mp hk).1).1
    exact Nat.lt_irrefl _ (Nat.lt_of_lt_of_le (hlt c hc) hle)
  · rw [mem_closings, List.mem_append, List.mem_filter, mem_newClients, decide_eq_true_iff]
    by_cases hold : c < d.broker.clients.length
    · have hsame : after.broker.clients[c]? = (d.endedClients name)[c]? := by
        rw [hclients, List.getElem?_append_left (by rwa [hlength])]
      rw [hsame, h.mem_endedClients]
      constructor
      · rintro ⟨hclosed | hc, hopen⟩
        · exact absurd hclosed hopen
        · exact .inl hc
      · rintro (hc | ⟨⟨hle, -⟩, -⟩)
        · refine ⟨.inr hc, ?_⟩
          rw [h.not_closed hc]
          simp
        · omega
    · have hnone : d.broker.clients[c]? = none := List.getElem?_eq_none (by omega)
      constructor
      · rintro ⟨hclosed, -⟩
        have hlt' := (List.getElem?_eq_some_iff.mp hclosed).1
        exact .inr ⟨⟨by omega, hlt'⟩, hclosed⟩
      · rintro (hc | ⟨-, hclosed⟩)
        · exact absurd (hlt c hc) hold
        · exact ⟨hclosed, by simp [hnone]⟩

/-- The client that a source has and one that comes make up what is closed and what the source has
then. -/
theorem Apart.balance_of_renewal (h : d.Apart) (hr : d.Renewal name after) :
    (d.sessionClients name ++ newClients d.broker after.broker).Perm
      (closings d.broker after.broker ++ after.sessionClients name) := by
  have hlength := length_endedClients d name
  cases hr with
  | idle broker session =>
      have hnew : newClients d.broker d.broker = [] := by rw [newClients, Nat.sub_self]; rfl
      have hclosed : closings d.broker d.broker = [] :=
        List.eq_nil_iff_forall_not_mem.mpr fun c hc => (mem_closings.mp hc).2 (mem_closings.mp hc).1
      rw [broker, hnew, hclosed, sessionClients, sessionClients, session, List.append_nil]
      exact .refl _
  | ended clients session =>
      have hnew : newClients d.broker after.broker = [] := by
        rw [newClients, clients, hlength, Nat.sub_self]
        rfl
      have hperm := h.closings_perm (clients.trans (List.append_nil _).symm)
      rw [hnew, List.filter_nil, List.append_nil] at hperm
      rw [hnew, sessionClients_of_none session, List.append_nil, List.append_nil]
      exact hperm.symm
  | refused clients session =>
      have hnew := newClients_of_append hlength clients
      have hperm := h.closings_perm clients
      have hlast : after.broker.clients[d.broker.clients.length]? = some true := by
        rw [clients, ← hlength, List.getElem?_concat_length]
      rw [hnew, List.filter_cons_of_pos (by simpa using hlast), List.filter_nil] at hperm
      rw [hnew, sessionClients_of_none session, List.append_nil]
      exact hperm.symm
  | opened clients session =>
      have hnew := newClients_of_append hlength clients
      have hperm := h.closings_perm clients
      have hlast : after.broker.clients[d.broker.clients.length]? = some false := by
        rw [clients, ← hlength, List.getElem?_concat_length]
      rw [hnew, List.filter_cons_of_neg (by simp [hlast]), List.filter_nil, List.append_nil]
        at hperm
      rw [hnew, session]
      exact hperm.symm.append_right _

/-! ## Steps that bring nothing -/

/-- Clients stay as they are where none may come and none may be closed. -/
theorem clients_step (hconnects : ¬ MayConnect s) (hcloses : ∀ c, ¬ d.MayClose s c) :
    (d.step s).2.broker.clients = d.broker.clients := by
  rw [Deployment.step]
  dsimp only
  rw [clients_dropUnheld]
  exact (acts { d with log := [] } s).asks.keeps_clients hconnects hcloses

/-- No consumer comes where none is sought. -/
theorem consumers_length_step (h : d.sought? s = none) :
    (d.step s).2.broker.consumers.length = d.broker.consumers.length := by
  rw [Deployment.step]
  dsimp only
  rw [consumers_length_dropUnheld]
  apply (acts { d with log := [] } s).asks.consumers_length
  intro options hoptions
  cases h.symm.trans hoptions

theorem clients_length_step (hconnects : ¬ MayConnect s) :
    (d.step s).2.broker.clients.length = d.broker.clients.length := by
  rw [Deployment.step]
  dsimp only
  rw [clients_dropUnheld]
  exact (acts { d with log := [] } s).asks.clients_length hconnects

theorem clients_step_of_idle (helsewhere : ¬ s.Elsewhere name) (hrenews : ¬ s.Renews name) :
    (d.step s).2.broker.clients = d.broker.clients := by
  cases s with
  | openSource | teardown => exact absurd hrenews helsewhere
  | connect | subscribe | closeClient => exact absurd trivial helsewhere
  | _ => exact clients_step id fun _ => id

/-! ## What the answers tell -/

/-- How many clients a source has got by a step, as the answer tells: one where the source opens,
and one where it fails when it subscribes. -/
def told (name : String) : Step Store → Answer Store → ℕ
  | .openSource source _ _, .done | .openSource source _ _, .failed (.subscribe _) =>
      if source = name then 1 else 0
  | _, _ => 0

theorem told_elsewhere (h : s.Elsewhere name) (answer : Answer Store) : told name s answer = 0 := by
  unfold told
  split
  · exact if_neg h
  · exact if_neg h
  · rfl

theorem clients_length_connectSource (d : Deployment Store) (name : String) (config : Config)
    (subscription : String) (position : Option Bytes) (unused : String) :
    (d.connectSource name config subscription).2.broker.clients.length =
      d.broker.clients.length + told name (.openSource name position unused)
        (.ofSession (d.connectSource name config subscription).1) := by
  have hsubscribed := ((d.connected config).sameClients_subscribe d.broker.clients.length
    (config.subscribeOptions subscription)).clients
  rcases d.connectSource_outcomes name config subscription with
    ⟨cause, hclients, heq⟩ | ⟨hclients, ⟨cause, b, -, hb, heq⟩ | ⟨b, -, hb, heq⟩⟩
  · rw [heq]
    exact congrArg List.length hclients
  · rw [heq]
    rw [hb, hclients] at hsubscribed
    change (b.closeClient _).clients.length = _ + if name = name then 1 else 0
    rw [clients_closeClient, List.length_set, hsubscribed, List.length_append, if_pos rfl]
    rfl
  · rw [heq]
    rw [hb, hclients] at hsubscribed
    change b.clients.length = _ + if name = name then 1 else 0
    rw [hsubscribed, List.length_append, if_pos rfl]
    rfl

theorem clients_length_openSource {source : Source Store}
    (hs : d.sources.find? name = some source) (position : Option Bytes) (unused : String) :
    (d.openSource name source position unused).2.broker.clients.length =
      d.broker.clients.length + told name (.openSource name position unused)
        (.ofSession (d.openSource name source position unused).1) := by
  rcases openSource_cases hs position unused with
    ⟨e, hearly, he⟩ | ⟨config, subscription, isFresh, -, -, hopen⟩
  · rw [he]
    cases e with
    | subscribe => cases hearly
    | _ => rfl
  · rw [hopen, clients_length_connectSource _ name config subscription position unused,
      clients_length_teardown]
    rfl

/-- As many clients come in a step that is not made elsewhere as the answer tells. -/
theorem length_newClients_step (helsewhere : ¬ s.Elsewhere name) :
    (newClients d.broker (d.step s).2.broker).length = told name s (d.step s).1 := by
  have hidle : ¬ MayConnect s → (newClients d.broker (d.step s).2.broker).length = 0 := by
    intro hconnects
    rw [length_newClients, clients_length_step hconnects, Nat.sub_self]
  cases s with
  | openSource other position unused =>
      obtain rfl : other = name := not_not.mp helsewhere
      rw [length_newClients, Deployment.step]
      dsimp only
      rw [clients_dropUnheld]
      cases hs : d.sources.find? other with
      | none =>
          simp only [act, hs]
          exact Nat.sub_self _
      | some source =>
          have hlength := clients_length_openSource (d := { d with log := [] }) hs position unused
          simp only [act, hs, Prod.map, id]
          rw [hlength]
          exact Nat.add_sub_cancel_left ..
  | connect => exact absurd trivial helsewhere
  | _ => exact hidle id

/-! ## Clients over a run -/

theorem sessionClients_dropUnheld (d : Deployment Store) (name : String) :
    d.dropUnheld.sessionClients name = d.sessionClients name := by
  rw [sessionClients, session?_dropUnheld, sessionClients]

theorem sessionClients_step (hreplaces : ¬ s.Replaces name) (hrenews : ¬ s.Renews name) :
    (d.step s).2.sessionClients name = d.sessionClients name := by
  rw [sessionClients, session?_step, (acts { d with log := [] } s).session? hreplaces hrenews]
  rfl

/-- What a source has and what comes in a step that is not made elsewhere is what is closed and what
the source has then. -/
theorem Apart.balance_step (h : d.Apart) (hk : d.AllKnown) (hreplaces : ¬ s.Replaces name)
    (helsewhere : ¬ s.Elsewhere name) :
    (d.sessionClients name ++ newClients d.broker (d.step s).2.broker).Perm
      (closings d.broker (d.step s).2.broker ++ (d.step s).2.sessionClients name) := by
  by_cases hrenews : s.Renews name
  · have hbalance := h.cleared.balance_of_renewal
      ((acts { d with log := [] } s).renewal hrenews (hk.cleared name))
    rw [Deployment.step]
    dsimp only
    rw [sessionClients_dropUnheld, newClients, closings, clients_dropUnheld]
    exact hbalance
  · have hclients := clients_step_of_idle (d := d) helsewhere hrenews
    rw [sessionClients_step hreplaces hrenews, newClients_of_eq hclients, closings_of_eq hclients,
      List.append_nil]
    exact .refl _

/-- What steps of one kind bring, each seen from the states of the broker before it and after it. -/
def tally {α : Type} (of : Step Store → Prop) [DecidablePred of] (between : Store → Store → List α)
    (d : Deployment Store) : List (Step Store) → List α
  | [] => []
  | s :: rest =>
      (if of s then between d.broker (d.step s).2.broker else []) ++
        (d.step s).2.tally of between rest

section Tally

variable {α : Type} {of : Step Store → Prop} [DecidablePred of] {between : Store → Store → List α}
  {steps : List (Step Store)}

theorem mem_tally {x : α} : x ∈ d.tally of between steps ↔
    ∃ before s rest, steps = before ++ s :: rest ∧ of s ∧
      x ∈ between (d.run before).2.broker ((d.run before).2.step s).2.broker := by
  induction steps generalizing d with
  | nil =>
      rw [tally]
      simp
  | cons s rest ih =>
      rw [tally, List.mem_append, ih]
      constructor
      · rintro (hx | ⟨before, s', rest', rfl, hof, hx⟩)
        · split at hx
          · rename_i hof
            exact ⟨[], s, rest, rfl, hof, hx⟩
          · cases hx
        · exact ⟨s :: before, s', rest', rfl, hof, hx⟩
      · rintro ⟨before, s', rest', heq, hof, hx⟩
        cases before with
        | nil =>
            cases heq
            left
            rwa [if_pos hof]
        | cons first before =>
            cases heq
            exact .inr ⟨before, s', rest', rfl, hof, hx⟩

theorem tally_append (d : Deployment Store) (before rest : List (Step Store)) :
    d.tally of between (before ++ rest) =
      d.tally of between before ++ (d.run before).2.tally of between rest := by
  induction before generalizing d with
  | nil => rfl
  | cons s before ih =>
      rw [List.cons_append, tally, tally, ih, List.append_assoc]
      rfl

theorem keepsClients_run (d : Deployment Store) (steps : List (Step Store)) :
    d.broker.KeepsClients (d.run steps).2.broker :=
  run_preserves (P := fun after => d.broker.KeepsClients after.broker)
    (fun after s h => h.trans (after.keepsClients_step s)) (.of_eq rfl) steps

theorem keepsClients_of_step (d : Deployment Store) (before rest : List (Step Store))
    (s : Step Store) :
    ((d.run before).2.step s).2.broker.KeepsClients (d.run (before ++ s :: rest)).2.broker := by
  rw [run_append]
  exact keepsClients_run _ rest

/-- Clients that come in the course of steps are counted on from those that there were. -/
theorem lt_of_mem_tally (h : c ∈ d.tally of newClients steps) :
    d.broker.clients.length ≤ c ∧ c < (d.run steps).2.broker.clients.length := by
  obtain ⟨before, s, rest, rfl, -, hc⟩ := mem_tally.mp h
  obtain ⟨hle, hlt⟩ := mem_newClients.mp hc
  exact ⟨Nat.le_trans (d.keepsClients_run before).length_le hle,
    Nat.lt_of_lt_of_le hlt (d.keepsClients_of_step before rest s).length_le⟩

theorem nodup_tally_newClients : (d.tally of newClients steps).Nodup := by
  induction steps generalizing d with
  | nil => exact .nil
  | cons s rest ih =>
      rw [tally]
      refine List.nodup_append.mpr ⟨?_, ih, ?_⟩
      · split
        · exact nodup_newClients _ _
        · exact .nil
      · rintro c hc k hk rfl
        have hle := (lt_of_mem_tally hk).1
        split at hc
        · exact Nat.lt_irrefl _ (Nat.lt_of_lt_of_le (mem_newClients.mp hc).2 hle)
        · cases hc

/-- What is closed in the course of steps stays closed. -/
theorem closed_of_mem_tally (h : c ∈ d.tally of closings steps) :
    (d.run steps).2.broker.clients[c]? = some true := by
  obtain ⟨before, s, rest, rfl, -, hc⟩ := mem_tally.mp h
  exact (d.keepsClients_of_step before rest s).closed c (mem_closings.mp hc).1

/-- All steps together close what was not closed before them and is closed after them. -/
theorem tally_closings (d : Deployment Store) (steps : List (Step Store)) :
    (d.tally (fun _ => True) closings steps).Perm
      (closings d.broker (d.run steps).2.broker) := by
  induction steps generalizing d with
  | nil =>
      have hnone : closings d.broker (d.run []).2.broker = [] := closings_of_eq rfl
      rw [tally, hnone]
  | cons s rest ih =>
      rw [tally, if_pos trivial]
      apply ((ih (d.step s).2).append_left _).trans
      exact closings_append (d.keepsClients_step s) (keepsClients_run _ rest)

theorem Regular.countsClosed_run (h : d.Regular) (hd : d.broker.CountsClosed)
    (steps : List (Step Store)) : (d.run steps).2.broker.CountsClosed :=
  h.preserve (fun hop _ hb => hop.countsClosed hb) hd steps

/-- The broker counts what steps close. -/
theorem Regular.length_tally_closingCounts (h : d.Regular) (hd : d.broker.CountsClosed) :
    (d.tally of closingCounts steps).length = (d.tally of closings steps).length := by
  induction steps generalizing d with
  | nil => rfl
  | cons s rest ih =>
      have hnext : (d.step s).2.broker.CountsClosed := h.countsClosed_run hd [s]
      rw [tally, tally, List.length_append, List.length_append, ih (h.step s) hnext]
      split
      · rw [length_closingCounts hd hnext (d.keepsClients_step s)]
      · rfl

end Tally

/-- How many clients a source has got in the course of steps, as their answers tell. -/
def allTold (name : String) (d : Deployment Store) : List (Step Store) → ℕ
  | [] => 0
  | s :: rest => told name s (d.step s).1 + (d.step s).2.allTold name rest

theorem length_tally_newClients (d : Deployment Store) (name : String)
    (steps : List (Step Store)) :
    (d.tally (¬ ·.Elsewhere name) newClients steps).length = d.allTold name steps := by
  induction steps generalizing d with
  | nil => rfl
  | cons s rest ih =>
      rw [tally, allTold, List.length_append, ih]
      split
      · rename_i helsewhere
        rw [length_newClients_step helsewhere]
      · rename_i helsewhere
        rw [told_elsewhere (not_not.mp helsewhere)]
        rfl

/-- What a source has and what comes for it make up what is closed for it and what it has then. -/
theorem Apart.balance_run (h : d.Apart) (hd : d.Regular) (hk : d.AllKnown)
    {steps : List (Step Store)} (hs : ∀ s ∈ steps, ¬ s.Replaces name) :
    (d.sessionClients name ++ d.tally (¬ ·.Elsewhere name) newClients steps).Perm
      (d.tally (¬ ·.Elsewhere name) closings steps ++ (d.run steps).2.sessionClients name) := by
  induction steps generalizing d with
  | nil => exact List.perm_append_comm
  | cons s rest ih =>
      have hreplaces := hs s (List.mem_cons_self ..)
      have hrest := ih (h.step hk s) (hd.step s) (hd.allKnown_step hk s)
        fun s' hs' => hs s' (List.mem_cons_of_mem _ hs')
      rw [tally, tally]
      by_cases helsewhere : s.Elsewhere name
      · have hrenews : ¬ s.Renews name := by
          cases s with
          | openSource | teardown => exact helsewhere
          | _ => exact id
        rw [if_neg (not_not_intro helsewhere), if_neg (not_not_intro helsewhere),
          ← sessionClients_step hreplaces hrenews]
        exact hrest
      · have hstep := h.balance_step hk hreplaces helsewhere
        rw [if_pos helsewhere, if_pos helsewhere, ← List.append_assoc (sessionClients _ _),
          List.append_assoc (closings _ _)]
        apply (hstep.append_right _).trans
        rw [List.append_assoc]
        exact hrest.append_left _

end TrackedDelivery.Deployment
