import RttNmea.Generator

/-!
# Chains of generators in the heap

What nmea_gen_add, nmea_gen_init, nmea_gen_loop and nmea_gen_destroy do to a chain is said in terms
of the list of its generators.
-/

namespace RttNmea

open Heap

variable {D : Type}

/-! ## Cells -/

/-- Where a generator lies, and its members less the link. -/
abbrev GenCell (D : Type) := Addr × Generator D

def cellBlock (c : GenCell D) (next : Option Addr) : Generator D := { c.2 with next := next }

/-- The cells of a chain, linked in this order. -/
def ChainAt (h : Heap (Generator D)) (cs : List (GenCell D)) : Prop :=
  Linked Prod.fst cellBlock h cs

def entry (cs : List (GenCell D)) : Option Addr := firstAddr Prod.fst cs

def places (cs : List (GenCell D)) : List Addr := cs.map Prod.fst

theorem entry_isSome {cs : List (GenCell D)} : (entry cs).isSome ↔ cs ≠ [] := by
  cases cs <;> simp [entry, firstAddr]

theorem chainAt_cons {h : Heap (Generator D)} {c : GenCell D} {cs : List (GenCell D)} :
    ChainAt h (c :: cs) ↔ h.load c.1 = some { c.2 with next := entry cs } ∧ ChainAt h cs :=
  Iff.rfl

/-! ## Calling the functions of a chain -/

/-- nmea_gen_init on the generators of a chain. -/
def initAll (o : Outside) : Int32 → List (Generator D) → Reads → Info D →
    Option (Int32 × Reads × Info D)
  | retVal, [], r, info => some (retVal, r, info)
  | retVal, g :: gs, r, info =>
    if retVal = 0 then some (retVal, r, info)
    else do
      let (retVal, r, info) ← callIf g.initCall retVal o r info
      initAll o retVal gs r info

/-- nmea_gen_loop on the generators of a chain: the first one that returns 0 is the last. -/
def loopAll (o : Outside) : List (Generator D) → Reads → Info D → Option (Int32 × Reads × Info D)
  | [], _, _ => none
  | g :: gs, r, info => do
    let (retVal, r, info) ← callIf g.loopCall 1 o r info
    if retVal ≠ 0 ∧ gs ≠ [] then loopAll o gs r info else return (retVal, r, info)

theorem genInitFrom_chain {h : Heap (Generator D)} {cs : List (GenCell D)} (hc : ChainAt h cs)
    (o : Outside) {fuel : Nat} (hfuel : cs.length ≤ fuel) (retVal : Int32) (r : Reads)
    (info : Info D) :
    genInitFrom h o fuel retVal (entry cs) r info = initAll o retVal (cs.map Prod.snd) r info := by
  induction cs generalizing fuel retVal r info with
  | nil => cases fuel <;> rfl
  | cons c cs ih =>
    obtain ⟨fuel, rfl⟩ : ∃ n, fuel = n + 1 := Nat.exists_eq_add_one.mpr (by
      rw [List.length_cons] at hfuel
      omega)
    obtain ⟨hload, hrest⟩ := chainAt_cons.mp hc
    have hentry : entry (c :: cs) = some c.1 := rfl
    rw [hentry, genInitFrom, List.map_cons, initAll]
    split
    · rfl
    · rw [hload]
      simp only [Option.bind_eq_bind, Option.bind_some]
      congr 1
      funext ⟨retVal, r, info⟩
      exact ih hrest (Nat.le_of_succ_le_succ hfuel) retVal r info

theorem genLoopFrom_chain {h : Heap (Generator D)} {cs : List (GenCell D)} (hc : ChainAt h cs)
    (o : Outside) {fuel : Nat} (hfuel : cs.length ≤ fuel) (r : Reads) (info : Info D) :
    genLoopFrom h o fuel (entry cs) r info = loopAll o (cs.map Prod.snd) r info := by
  induction cs generalizing fuel r info with
  | nil => cases fuel <;> rfl
  | cons c cs ih =>
    obtain ⟨fuel, rfl⟩ : ∃ n, fuel = n + 1 := Nat.exists_eq_add_one.mpr (by
      rw [List.length_cons] at hfuel
      omega)
    obtain ⟨hload, hrest⟩ := chainAt_cons.mp hc
    have hentry : entry (c :: cs) = some c.1 := rfl
    rw [hentry, genLoopFrom, List.map_cons, loopAll]
    simp only [Option.bind_eq_bind, Option.bind_some, hload]
    congr 1
    funext ⟨retVal, r, info⟩
    have hnext : (entry cs).isSome = true ↔ cs.map Prod.snd ≠ [] := by
      rw [entry_isSome, Ne, Ne, List.map_eq_nil_iff]
    simp only [hnext]
    split
    · exact ih hrest (Nat.le_of_succ_le_succ hfuel) r info
    · rfl

/-! ## Adding a chain to a chain -/

/-- The last cell is made to point at the chain; no other block changes. -/
theorem genAddFrom_chain {h : Heap (Generator D)} {cs : List (GenCell D)} {e : GenCell D}
    (hc : ChainAt h (cs ++ [e])) (gen : Option Addr) {fuel : Nat} (hfuel : cs.length < fuel) :
    ∃ h', genAddFrom gen fuel h (entry (cs ++ [e])) = some h' ∧
      h'.load e.1 = some { e.2 with next := gen } ∧
      (∀ c, c ≠ e.1 → h'.load c = h.load c) ∧ h'.live.Perm h.live := by
  induction cs generalizing fuel with
  | nil =>
    obtain ⟨fuel, rfl⟩ := Nat.exists_eq_add_one.mpr hfuel
    have hload : h.load e.1 = some { e.2 with next := none } := hc.1
    obtain ⟨h', hstore, hself, hother, hlive⟩ :=
      store_some (mem_live_of_load hload) ({ e.2 with next := gen } : Generator D)
    refine ⟨h', ?_, hself, hother, hlive⟩
    have hentry : entry ([] ++ [e]) = some e.1 := rfl
    rw [hentry, genAddFrom]
    simp only [Option.bind_eq_bind, Option.bind_some, hload]
    exact hstore
  | cons c cs ih =>
    obtain ⟨fuel, rfl⟩ : ∃ n, fuel = n + 1 := Nat.exists_eq_add_one.mpr (by omega)
    obtain ⟨hload, hrest⟩ := chainAt_cons.mp hc
    obtain ⟨h', hrun, hspec⟩ := ih hrest (Nat.lt_of_succ_lt_succ hfuel)
    refine ⟨h', ?_, hspec⟩
    have hentry : entry (c :: cs ++ [e]) = some c.1 := rfl
    have hnext : (entry (cs ++ [e])).isSome = true := entry_isSome.mpr (by simp)
    have hcells : h.load c.1 = some { c.2 with next := entry (cs ++ [e]) } := hload
    rw [hentry, genAddFrom]
    simp only [Option.bind_eq_bind, Option.bind_some, hcells]
    rw [if_pos hnext, hrun]

/-! ## Destroying a chain -/

/-- Every block of the chain is freed, each once, and no other one. -/
theorem genDestroyFrom_chain {h : Heap (Generator D)} {cs : List (GenCell D)} (hc : ChainAt h cs)
    (hne : cs ≠ []) (hnodup : (places cs).Nodup) {fuel : Nat} (hfuel : cs.length ≤ fuel) :
    ∃ h', genDestroyFrom fuel h (entry cs) = some h' ∧
      (∀ a, a ∉ places cs → h'.load a = h.load a) ∧ h.live.Perm (places cs ++ h'.live) := by
  induction cs generalizing fuel with
  | nil => exact absurd rfl hne
  | cons c cs ih =>
    obtain ⟨fuel, rfl⟩ : ∃ n, fuel = n + 1 := Nat.exists_eq_add_one.mpr (by
      rw [List.length_cons] at hfuel
      omega)
    obtain ⟨hload, hrest⟩ := chainAt_cons.mp hc
    obtain ⟨hfirst, htail⟩ := List.nodup_cons.mp hnodup
    have hentry : entry (c :: cs) = some c.1 := rfl
    rw [hentry, genDestroyFrom]
    simp only [Option.bind_eq_bind, Option.bind_some, hload]
    by_cases hlast : cs = []
    · subst hlast
      obtain ⟨h', hfree, hother, hlive⟩ := free_some (mem_live_of_load hload)
      refine ⟨h', hfree, ?_, hlive⟩
      intro a ha
      exact hother a fun heq => ha (List.mem_singleton.mpr heq)
    · obtain ⟨h₁, hrun, hsame, hfreed⟩ := ih hrest hlast htail (Nat.le_of_succ_le_succ hfuel)
      have hstays : h₁.load c.1 = some { c.2 with next := entry cs } := by
        rw [hsame c.1 hfirst, hload]
      obtain ⟨h₂, hstore, -, hother₂, hlive₂⟩ :=
        store_some (mem_live_of_load hstays) ({ c.2 with next := none } : Generator D)
      obtain ⟨h₃, hfree, hother₃, hlive₃⟩ :=
        free_some (hlive₂.mem_iff.mpr (mem_live_of_load hstays))
      refine ⟨h₃, ?_, ?_, ?_⟩
      · rw [if_pos (entry_isSome.mpr hlast), hrun]
        simp only [Option.bind_some]
        rw [hstore]
        exact hfree
      · intro a ha
        obtain ⟨hne, hmem⟩ : a ≠ c.1 ∧ a ∉ places cs := by
          simpa [places] using ha
        rw [hother₃ a hne, hother₂ a hne, hsame a hmem]
      · -- the blocks behind it, then its own
        have hmiddle : h₁.live.Perm (c.1 :: h₃.live) := hlive₂.symm.trans hlive₃
        exact hfreed.trans ((hmiddle.append_left _).trans List.perm_middle)

end RttNmea
