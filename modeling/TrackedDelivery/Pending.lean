import TrackedDelivery.TextMap
/-!
# The pending set

The messages that the pipeline has been given and has not yet acknowledged, each under the text
of its identifier. An entry is never replaced: it leaves by removal or when the set is drained.
-/
namespace TrackedDelivery

universe u

variable {α : Type u}

abbrev PendingSet (α : Type u) := TextMap α

namespace PendingSet

/-- Adds an entry unless its key is taken, and says whether it was added. -/
def insertIfAbsent (set : PendingSet α) (key : String) (value : α) : Bool × PendingSet α :=
  if set.contains key then (false, set) else (true, set.insert key value)

/-- Takes the entry of a key out of the set. -/
def remove (set : PendingSet α) (key : String) : Option α × PendingSet α :=
  (set.find? key, set.erase key)

/-- Takes all entries out, in the order of their keys. -/
def drain (set : PendingSet α) : List (String × α) × PendingSet α := (set.entries, ∅)

end PendingSet
end TrackedDelivery
