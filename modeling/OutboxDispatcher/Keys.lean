import Mathlib.Data.List.Nodup

/-! # The key ring

A callback names the key that its webhooks are signed with, and the ring has the secrets by their
ids. -/

namespace OutboxDispatcher.Keys

/-- `KeyRing`, a map from ids to secrets. -/
structure KeyRing where
  keys : List (String × List UInt8)
  ids_nodup : (keys.map Prod.fst).Nodup

namespace KeyRing

def get (ring : KeyRing) (id : String) : Option (List UInt8) := ring.keys.lookup id

def contains (ring : KeyRing) (id : String) : Bool := (ring.get id).isSome

def empty : KeyRing := ⟨[], List.nodup_nil⟩

/-- `HashMap::insert`. -/
def insert (ring : KeyRing) (id : String) (secret : List UInt8) : KeyRing where
  keys := ring.keys.filter (·.1 ≠ id) ++ [(id, secret)]
  ids_nodup := by
    rw [List.map_append]
    refine ((List.filter_sublist.map _).nodup ring.ids_nodup).append (List.nodup_singleton id) ?_
    intro id' h h'
    obtain ⟨key, hkey, rfl⟩ := List.mem_map.mp h
    exact of_decide_eq_true (List.mem_filter.mp hkey).2 (List.mem_singleton.mp h')

def withKey (keyId : String) (secret : List UInt8) : KeyRing where
  keys := [(keyId, secret)]
  ids_nodup := List.nodup_singleton keyId

theorem lookup_of_mem {id : String} {secret : List UInt8} :
    ∀ {keys : List (String × List UInt8)}, (keys.map Prod.fst).Nodup → (id, secret) ∈ keys →
      keys.lookup id = some secret
  | [], _, h => nomatch h
  | (id', secret') :: keys, hn, h => by
    rw [List.map_cons, List.nodup_cons] at hn
    rcases List.mem_cons.mp h with heq | hmem
    · cases heq
      exact List.lookup_cons_self
    · have hne : id ≠ id' := fun heq => hn.1 (List.mem_map.mpr ⟨_, hmem, heq⟩)
      rw [List.lookup_cons, beq_eq_false_iff_ne.mpr hne]
      exact lookup_of_mem hn.2 hmem

theorem get_of_mem {ring : KeyRing} {id : String} {secret : List UInt8}
    (h : (id, secret) ∈ ring.keys) : ring.get id = some secret := lookup_of_mem ring.ids_nodup h

theorem get_eq_some_iff {ring : KeyRing} {id : String} {secret : List UInt8} :
    ring.get id = some secret ↔ (id, secret) ∈ ring.keys := by
  refine ⟨fun h => ?_, get_of_mem⟩
  obtain ⟨first, rest, hkeys, -⟩ := List.lookup_eq_some_iff.mp h
  rw [hkeys]
  exact List.mem_append_right _ List.mem_cons_self

end KeyRing

end OutboxDispatcher.Keys
