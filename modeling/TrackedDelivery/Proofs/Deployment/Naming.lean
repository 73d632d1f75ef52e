import TrackedDelivery.Proofs.Deployment.Draining
/-!
# Messages under their names

A tracker keeps what is pending under the texts of the identifiers. Since a text belongs to one
identifier, a look-up by it finds the message of that identifier and no other one, and a message
that is found is the only one of its identifier.
-/
namespace TrackedDelivery.Memory

section

variable {t : Tracker Store} {id : EntryId}

/-- What stands under the text of an identifier is the pending message that has it. -/
theorem find?_text_iff (h : Keyed t) {m : Message EntryId} :
    t.pending.find? id.text = some m ↔ m ∈ t.pending.values ∧ m.id = id := by
  rw [TextMap.mem_values]
  constructor
  · intro hm
    exact ⟨⟨id.text, hm⟩, (EntryId.text_inj.mp (h _ _ hm)).symm⟩
  · rintro ⟨⟨key, hm⟩, rfl⟩
    rwa [h key m hm] at hm

theorem contains_text_iff (h : Keyed t) :
    t.pending.contains id.text = true ↔ id ∈ pendingIds t := by
  rw [TextMap.contains_iff, pendingIds, List.mem_map]
  exact exists_congr fun m => find?_text_iff h

end

/-- Both renderings of an identifier name it, and exactly the bytes of an identifier are read, which
are any sixteen. So in every state of every run, the keys of what is pending in a tracker are the
texts of its identifiers, each of which occurs once, and the text of an identifier leads to the
message that has it. -/
theorem renderings_faithful :
    (∀ a b : EntryId, a.text = b.text ↔ a = b) ∧
    (∀ a b : EntryId, a.toBytes = b.toBytes ↔ a = b) ∧
    (∀ (bytes : Bytes) (id : EntryId), EntryId.ofBytes bytes = .ok id ↔ bytes = id.toBytes) ∧
    (∀ bytes : Bytes, (∃ id, EntryId.ofBytes bytes = .ok id) ↔ bytes.length = 16) ∧
    ∀ (steps : List (Step Store)) (t : Tracker Store),
      t ∈ (Deployment.fresh.run steps).2.trackers →
        t.pending.keys = (pendingIds t).map EntryId.text ∧ (pendingIds t).Nodup ∧
        (∀ id : EntryId, t.pending.contains id.text = true ↔ id ∈ pendingIds t) ∧
        ∀ (id : EntryId) (m : Message EntryId),
          t.pending.find? id.text = some m ↔ m ∈ t.pending.values ∧ m.id = id := by
  refine ⟨fun a b => EntryId.text_inj, fun a b => EntryId.toBytes_inj, fun bytes id => ?_,
    fun bytes => EntryId.exists_ofBytes_iff, fun steps t ht => ?_⟩
  · rw [EntryId.ofBytes_eq_ok, eq_comm]
  · have hkeyed : Keyed t := (Deployment.recorded_run steps).allKeyed t ht
    exact ⟨(map_text_pendingIds hkeyed).symm, nodup_pendingIds hkeyed,
      fun id => contains_text_iff hkeyed, fun id m => find?_text_iff hkeyed⟩

set_option maxRecDepth 10000 in
/-- One key may begin another one. -/
theorem named_of_crowdedRun : ∃ t ∈ (Deployment.fresh.run crowdedRun).2.trackers,
    t.pending.keys =
        ["0:0", "0:1", "0:10", "0:2", "0:3", "0:4", "0:5", "0:6", "0:7", "0:8", "0:9"] ∧
      ∀ id : EntryId, t.pending.contains id.text = true ↔
        id ∈ ([0, 1, 10, 2, 3, 4, 5, 6, 7, 8, 9].map fun entry => ⟨0, entry⟩ : List EntryId) := by
  have hids : (Deployment.fresh.run crowdedRun).2.trackers[0]?.map pendingIds =
      some ([0, 1, 10, 2, 3, 4, 5, 6, 7, 8, 9].map (⟨0, ·⟩)) := by
    decide +kernel
  obtain ⟨t, ht, hids⟩ := Option.map_eq_some_iff.mp hids
  have hmem := List.mem_of_getElem? ht
  obtain ⟨-, -, -, -, hnamed⟩ := renderings_faithful
  obtain ⟨hkeys, -, hcontains, -⟩ := hnamed crowdedRun t hmem
  rw [hids] at hkeys
  refine ⟨t, hmem, hkeys.trans ?_, fun id => hids ▸ hcontains id⟩
  decide

end TrackedDelivery.Memory
