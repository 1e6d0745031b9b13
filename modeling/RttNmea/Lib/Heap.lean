import Mathlib.Data.List.AList
import Mathlib.Data.List.MinMax

/-!
# A heap with a ledger, and chains in it

The heap maps the live addresses to their blocks. Reading, writing or freeing an address
that is not live is a fault (`none`), so a run that does not fault frees nothing twice and
touches nothing freed. `live` is the ledger: the addresses handed out and not yet freed.

`Linked` says that cells lie in the heap as a singly linked chain, each holding the
address of the next.
-/

abbrev Addr := Nat

abbrev Heap (B : Type) := AList fun _ : Addr => B

/-- Where the allocator puts the next block: any place that is not in use. -/
structure Allocator where
  place : List Addr → Addr
  fresh : ∀ live, place live ∉ live

/-- An allocator that puts a block above all live ones. -/
def Allocator.bump : Allocator where
  place live := live.foldr max 0 + 1
  fresh live h := by
    exact absurd (List.le_max_of_le' 0 h le_rfl) (Nat.not_succ_le_self _)

namespace Heap

variable {B : Type}

def live (h : Heap B) : List Addr := h.keys

def load (h : Heap B) (a : Addr) : Option B := h.lookup a

def store (h : Heap B) (a : Addr) (b : B) : Option (Heap B) :=
  if a ∈ h then some (h.insert a b) else none

def free (h : Heap B) (a : Addr) : Option (Heap B) :=
  if a ∈ h then some (h.erase a) else none

def alloc (al : Allocator) (h : Heap B) (b : B) : Addr × Heap B :=
  (al.place h.live, h.insert (al.place h.live) b)

theorem live_nodup (h : Heap B) : h.live.Nodup := h.keys_nodup

theorem mem_live_of_load {h : Heap B} {a : Addr} {b : B} (hl : h.load a = some b) :
    a ∈ h.live := by
  have : a ∈ h := AList.lookup_isSome.mp (by rw [load] at hl; simp [hl])
  exact AList.mem_keys.mp this

theorem mem_of_live {h : Heap B} {a : Addr} (ha : a ∈ h.live) : a ∈ h := AList.mem_keys.mpr ha

/-! ## Writing -/

theorem store_some {h : Heap B} {a : Addr} (ha : a ∈ h.live) (b : B) :
    ∃ h', h.store a b = some h' ∧ h'.load a = some b ∧
      (∀ c, c ≠ a → h'.load c = h.load c) ∧ h'.live.Perm h.live := by
  refine ⟨h.insert a b, if_pos (mem_of_live ha), AList.lookup_insert h, ?_, ?_⟩
  · intro c hc
    exact AList.lookup_insert_ne hc
  · show (h.insert a b).keys.Perm h.keys
    rw [AList.keys_insert]
    exact (List.perm_cons_erase ha).symm

/-! ## Allocating -/

theorem alloc_fresh (al : Allocator) (h : Heap B) (b : B) : (h.alloc al b).1 ∉ h.live :=
  al.fresh h.live

theorem alloc_live (al : Allocator) (h : Heap B) (b : B) :
    (h.alloc al b).2.live = (h.alloc al b).1 :: h.live := by
  have fresh : al.place h.live ∉ h.keys := al.fresh h.keys
  have : (h.insert (al.place h.live) b).keys = al.place h.live :: h.keys := by
    rw [AList.keys_insert, List.erase_of_not_mem fresh]
  exact this

theorem load_alloc_self (al : Allocator) (h : Heap B) (b : B) :
    (h.alloc al b).2.load (h.alloc al b).1 = some b :=
  AList.lookup_insert h

theorem load_alloc_live (al : Allocator) (h : Heap B) (b : B) {c : Addr} (hc : c ∈ h.live) :
    (h.alloc al b).2.load c = h.load c := by
  refine AList.lookup_insert_ne ?_
  rintro rfl
  exact al.fresh h.live hc

theorem alloc_spec (al : Allocator) (h : Heap B) (b : B) :
    ∃ a h', h.alloc al b = (a, h') ∧ a ∉ h.live ∧ h'.live = a :: h.live ∧
      h'.load a = some b ∧ ∀ c ∈ h.live, h'.load c = h.load c :=
  ⟨_, _, rfl, alloc_fresh al h b, alloc_live al h b, load_alloc_self al h b,
    fun _ hc => load_alloc_live al h b hc⟩

/-! ## Freeing -/

theorem free_some {h : Heap B} {a : Addr} (ha : a ∈ h.live) :
    ∃ h', h.free a = some h' ∧ (∀ c, c ≠ a → h'.load c = h.load c) ∧
      h.live.Perm (a :: h'.live) := by
  refine ⟨h.erase a, if_pos (mem_of_live ha), ?_, ?_⟩
  · intro c hc
    exact AList.lookup_erase_ne hc
  · show h.keys.Perm (a :: (h.erase a).keys)
    rw [AList.keys_erase]
    exact List.perm_cons_erase ha

/-! ## Chains -/

section Chain

variable {C : Type} (addr : C → Addr) (block : C → Option Addr → B)

def firstAddr (cs : List C) : Option Addr := cs.head?.map addr

def lastAddr (cs : List C) : Option Addr := cs.getLast?.map addr

/-- The cells lie in the heap one after another: cell `c` is stored as `block c next`,
where `next` is the address of the cell after it. -/
def Linked (h : Heap B) : List C → Prop
  | [] => True
  | c :: cs => h.load (addr c) = some (block c (firstAddr addr cs)) ∧ Linked h cs

variable {addr block}

theorem Linked.congr {h h' : Heap B} {cs : List C} (hl : Linked addr block h cs)
    (same : ∀ c ∈ cs, h'.load (addr c) = h.load (addr c)) : Linked addr block h' cs := by
  induction cs with
  | nil => trivial
  | cons c cs ih =>
    obtain ⟨hc, hcs⟩ := hl
    refine ⟨?_, ih hcs fun d hd => same d (List.mem_cons_of_mem _ hd)⟩
    rw [same c List.mem_cons_self, hc]

/-- Every cell but the last points at its successor; the last one points nowhere. -/
theorem Linked.load_last {h : Heap B} {cs : List C} {e : C}
    (hl : Linked addr block h (cs ++ [e])) : h.load (addr e) = some (block e none) := by
  induction cs with
  | nil => exact hl.1
  | cons c cs ih => exact ih hl.2

/-- Each cell is stored with the address of the one after it, if there is one. -/
theorem Linked.load_at {h : Heap B} {cs : List C} (hl : Linked addr block h cs) {i : Nat} {c : C}
    (hi : cs[i]? = some c) : h.load (addr c) = some (block c (cs[i + 1]?.map addr)) := by
  induction cs generalizing i with
  | nil => simp at hi
  | cons d cs ih =>
    obtain ⟨hd, hcs⟩ := hl
    cases i with
    | zero =>
      obtain rfl : d = c := by simpa using hi
      simpa [firstAddr, List.head?_eq_getElem?] using hd
    | succ i => exact ih hcs (by simpa using hi)

/-- Appending a cell: the old last cell is made to point at the new one, and no other
cell of the chain changes. -/
theorem Linked.snoc {h h' : Heap B} {cs : List C} {e n : C}
    (hl : Linked addr block h (cs ++ [e]))
    (same : ∀ c ∈ cs, h'.load (addr c) = h.load (addr c))
    (he : h'.load (addr e) = some (block e (some (addr n))))
    (hn : h'.load (addr n) = some (block n none)) :
    Linked addr block h' (cs ++ [e] ++ [n]) := by
  induction cs with
  | nil => exact ⟨he, hn, trivial⟩
  | cons c cs ih =>
    obtain ⟨hc, hcs⟩ := hl
    refine ⟨?_, ih hcs fun d hd => same d (List.mem_cons_of_mem _ hd)⟩
    rw [same c List.mem_cons_self, hc]
    cases cs <;> rfl

/-- Joining two chains: the last cell of the first is made to point at the second. -/
theorem Linked.join {h h' : Heap B} {cs ds : List C} {e : C}
    (hl : Linked addr block h (cs ++ [e])) (hd : Linked addr block h ds)
    (same : ∀ c ∈ cs ++ ds, h'.load (addr c) = h.load (addr c))
    (he : h'.load (addr e) = some (block e (firstAddr addr ds))) :
    Linked addr block h' (cs ++ [e] ++ ds) := by
  induction cs with
  | nil => exact ⟨he, hd.congr same⟩
  | cons c cs ih =>
    obtain ⟨hc, hcs⟩ := hl
    refine ⟨?_, ih hcs fun d hd => same d (List.mem_cons_of_mem _ hd)⟩
    rw [same c List.mem_cons_self, hc]
    cases cs <;> rfl

theorem Linked.mem_live {h : Heap B} {cs : List C} (hl : Linked addr block h cs) :
    ∀ c ∈ cs, addr c ∈ h.live := by
  induction cs with
  | nil => exact fun c hc => absurd hc List.not_mem_nil
  | cons d cs ih =>
    intro c hc
    rcases List.mem_cons.mp hc with rfl | hc
    · exact mem_live_of_load hl.1
    · exact ih hl.2 c hc

/-- A chain without a cell twice is no longer than there are blocks. -/
theorem Linked.length_le {h : Heap B} {cs : List C} (hl : Linked addr block h cs)
    (hnodup : (cs.map addr).Nodup) : cs.length ≤ h.live.length := by
  have hsub : cs.map addr ⊆ h.live := by
    intro a ha
    obtain ⟨c, hc, rfl⟩ := List.mem_map.mp ha
    exact hl.mem_live c hc
  have hle := (List.subperm_of_subset hnodup hsub).length_le
  rwa [List.length_map] at hle

end Chain

end Heap
