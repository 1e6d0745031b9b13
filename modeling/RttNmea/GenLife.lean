import RttNmea.GenCalls
import RttNmea.GenChain

/-!
# The life of generators

Any sequence of calls on generators, in the order the caller likes: each is created, added to
another one, run and destroyed. On the heap it does what it does on lists of generators, and the
blocks in use are those of the generators that the caller still has.
-/

namespace RttNmea

open Heap

/-! ## An element of a list, and the others -/

def pick {α : Type} (i : Nat) (l : List α) : Option (α × List α) :=
  l[i]?.map fun x => (x, l.eraseIdx i)

theorem pick_perm {α : Type} {i : Nat} {l rest : List α} {x : α} (h : pick i l = some (x, rest)) :
    l.Perm (x :: rest) := by
  obtain ⟨y, hy, heq⟩ := Option.map_eq_some_iff.mp h
  obtain ⟨hi, rfl⟩ := List.getElem?_eq_some_iff.mp hy
  obtain ⟨rfl, rfl⟩ := Prod.mk.inj heq
  exact (List.getElem_cons_eraseIdx_perm hi).symm

theorem pick_map {α β : Type} (f : α → β) (i : Nat) (l : List α) :
    pick i (l.map f) = (pick i l).map fun p => (f p.1, p.2.map f) := by
  unfold pick
  rw [List.getElem?_map, Option.map_map, Option.map_map]
  congr 1
  funext x
  show (f x, (l.map f).eraseIdx i) = (f x, (l.eraseIdx i).map f)
  rw [List.eraseIdx_map]

/-! ## Chains that own the heap -/

variable {D : Type}

/-- Chains, and one more if it has a generator. -/
def consChain {α : Type} (cs : List α) (rest : List (List α)) : List (List α) :=
  if cs.isEmpty then rest else cs :: rest

theorem mem_consChain {α : Type} {cs ds : List α} {rest : List (List α)} :
    ds ∈ consChain cs rest ↔ ds = cs ∧ cs ≠ [] ∨ ds ∈ rest := by
  cases cs with
  | nil => simp [consChain]
  | cons c cs => simp [consChain]

theorem consChain_of_ne_nil {α : Type} {cs : List α} (h : cs ≠ []) (rest : List (List α)) :
    consChain cs rest = cs :: rest :=
  if_neg (by rwa [List.isEmpty_iff])

theorem consChain_swap {α : Type} (cs ds : List α) (rest : List (List α)) :
    (consChain ds (cs :: rest)).Perm (cs :: consChain ds rest) := by
  cases ds with
  | nil => exact List.Perm.refl _
  | cons d ds => exact List.Perm.swap cs (d :: ds) rest

theorem flatMap_consChain (cs : List (GenCell D)) (rest : List (List (GenCell D))) :
    (consChain cs rest).flatMap places = places cs ++ rest.flatMap places := by
  cases cs with
  | nil => rfl
  | cons c cs => rfl

/-- Every block belongs to one of the chains, and to one only. -/
structure Owns (h : Heap (Generator D)) (cells : List (List (GenCell D))) : Prop where
  chain : ∀ cs ∈ cells, cs ≠ [] ∧ ChainAt h cs
  live : h.live.Perm (cells.flatMap places)

namespace Owns

variable {h h' : Heap (Generator D)} {cells rest : List (List (GenCell D))} {cs ds : List (GenCell D)}

theorem perm (hown : Owns h cells) (hp : cells.Perm rest) : Owns h rest where
  chain cs hcs := hown.chain cs (hp.mem_iff.mpr hcs)
  live := hown.live.trans (hp.flatMap_right places)

theorem nodup (hown : Owns h cells) : (cells.flatMap places).Nodup :=
  hown.live.nodup_iff.mp h.live_nodup

theorem head_nodup (hown : Owns h (cs :: rest)) :
    (places cs).Nodup ∧ ∀ a ∈ places cs, a ∉ rest.flatMap places := by
  have hall := hown.nodup
  rw [List.flatMap_cons, List.nodup_append'] at hall
  exact ⟨hall.1, fun a ha hr => hall.2.2 ha hr⟩

theorem mem_places (hcs : cs ∈ cells) {c : GenCell D} (hc : c ∈ cs) :
    c.1 ∈ cells.flatMap places :=
  List.mem_flatMap.mpr ⟨cs, hcs, List.mem_map_of_mem hc⟩

theorem mem_live (hown : Owns h cells) {a : Addr} : a ∈ h.live ↔ a ∈ cells.flatMap places :=
  hown.live.mem_iff

/-- Chains stay where their blocks are left alone. -/
theorem chain_congr (hown : Owns h cells)
    (same : ∀ a ∈ cells.flatMap places, h'.load a = h.load a) :
    ∀ cs ∈ cells, cs ≠ [] ∧ ChainAt h' cs := by
  intro cs hcs
  obtain ⟨hne, hc⟩ := hown.chain cs hcs
  exact ⟨hne, hc.congr fun c hmem => same c.1 (mem_places hcs hmem)⟩

theorem tail (hown : Owns h (cs :: rest)) : ∀ ds ∈ rest, ds ≠ [] ∧ ChainAt h ds :=
  fun ds hds => hown.chain ds (List.mem_cons_of_mem cs hds)

/-- A new block is a chain of its own. -/
theorem alloc (hown : Owns h cells) (al : Allocator) {g : Generator D} (hg : g.next = none) :
    ∃ a h', h.alloc al g = (a, h') ∧ Owns h' ([(a, g)] :: cells) := by
  obtain ⟨a, h', hrun, -, hlive, hload, hsame⟩ := alloc_spec al h g
  have hcell : h'.load a = some { g with next := none } := by
    rw [hload, ← hg]
  refine ⟨a, h', hrun, ?_, ?_⟩
  · intro ds hds
    rcases List.mem_cons.mp hds with rfl | hds
    · exact ⟨List.cons_ne_nil _ _, hcell, trivial⟩
    · exact hown.chain_congr (fun a ha => hsame a (hown.mem_live.mpr ha)) ds hds
  · rw [hlive]
    exact hown.live.cons a

theorem length_le (hown : Owns h (cs :: rest)) : cs.length ≤ h.live.length :=
  Linked.length_le (hown.chain cs List.mem_cons_self).2 hown.head_nodup.1

theorem length_le_of_mem (hown : Owns h cells) (hcs : cs ∈ cells) : cs.length ≤ h.live.length := by
  obtain ⟨init, rest, rfl⟩ := List.append_of_mem hcs
  exact (hown.perm List.perm_middle).length_le

/-- nmea_gen_add makes one chain of two. -/
theorem join (hown : Owns h (cs :: consChain ds rest)) (hne : cs ≠ []) :
    ∃ h', nmeaGenAdd h (entry cs) (entry ds) = some h' ∧ Owns h' ((cs ++ ds) :: rest) := by
  obtain ⟨-, hcs⟩ := hown.chain cs List.mem_cons_self
  have hds : ChainAt h ds := by
    by_cases hnil : ds = []
    · subst hnil
      trivial
    · exact (hown.tail ds (mem_consChain.mpr (.inl ⟨rfl, hnil⟩))).2
  obtain ⟨hnodup, hapart⟩ := hown.head_nodup
  rw [flatMap_consChain] at hapart
  obtain ⟨init, e, rfl⟩ := (List.eq_nil_or_concat' cs).resolve_left hne
  have hlen : (init ++ [e]).length ≤ h.live.length := hown.length_le
  obtain ⟨h', hrun, hself, hother, hlive⟩ := genAddFrom_chain hcs (entry ds)
    (show init.length < h.live.length by
      rw [List.length_append, List.length_singleton] at hlen
      omega)
  have hlast : e.1 ∈ places (init ++ [e]) :=
    List.mem_map_of_mem (List.mem_append_right init (List.mem_singleton.mpr rfl))
  have hfront : ∀ c ∈ init, c.1 ≠ e.1 := by
    intro c hc heq
    rw [places, List.map_append, List.nodup_append'] at hnodup
    exact hnodup.2.2 (List.mem_map_of_mem hc) (heq ▸ List.mem_singleton.mpr rfl)
  have hbehind : ∀ a ∈ places ds ++ rest.flatMap places, a ≠ e.1 := by
    rintro a ha rfl
    exact hapart e.1 hlast ha
  have hjoined : ChainAt h' (init ++ [e] ++ ds) := by
    refine hcs.join hds ?_ hself
    intro c hc
    apply hother
    rcases List.mem_append.mp hc with hc | hc
    · exact hfront c hc
    · exact hbehind c.1 (List.mem_append_left _ (List.mem_map_of_mem hc))
  refine ⟨h', hrun, ?_, ?_⟩
  · intro es hes
    rcases List.mem_cons.mp hes with rfl | hes
    · exact ⟨by simp, hjoined⟩
    · obtain ⟨hne, hc⟩ := hown.tail es (mem_consChain.mpr (.inr hes))
      refine ⟨hne, hc.congr fun c hmem => hother c.1 ?_⟩
      exact hbehind c.1 (List.mem_append_right _ (mem_places hes hmem))
  · refine hlive.trans (hown.live.trans ?_)
    rw [List.flatMap_cons, flatMap_consChain, List.flatMap_cons, ← List.append_assoc]
    simp only [places, List.map_append]
    exact List.Perm.refl _

/-- nmea_gen_destroy takes a chain away. -/
theorem destroy (hown : Owns h (cs :: rest)) :
    ∃ h', nmeaGenDestroy h (entry cs) = some h' ∧ Owns h' rest := by
  obtain ⟨hne, hcs⟩ := hown.chain cs List.mem_cons_self
  obtain ⟨hnodup, hapart⟩ := hown.head_nodup
  obtain ⟨h', hrun, hsame, hlive⟩ :=
    genDestroyFrom_chain hcs hne hnodup hown.length_le
  refine ⟨h', hrun, ?_, ?_⟩
  · intro ds hds
    obtain ⟨hne, hc⟩ := hown.tail ds hds
    refine ⟨hne, hc.congr fun c hmem => hsame c.1 fun hcell => ?_⟩
    exact hapart c.1 hcell (mem_places hds hmem)
  · have hboth : (places cs ++ h'.live).Perm (places cs ++ rest.flatMap places) :=
      hlive.symm.trans hown.live
    exact (List.perm_append_left_iff _).mp hboth

end Owns

/-! ## Creating -/

section

variable [CTrig D]

/-- What a case with a call of rt_malloc makes, and how often it was called then. -/
def madeOne (env : Env) (type : GenType) (mallocs : Nat) : List (Generator D) × Nat :=
  match (type.generator : Option (Generator D)) with
  | some g => (if env.mallocOk mallocs then [g] else [], mallocs + 1)
  | none => ([], mallocs)

/-- What `__nmea_create_generator` makes. Without memory for the first of the two generators of
ROTATE it follows a null pointer. -/
def made (env : Env) (type : GenType) (mallocs : Nat) : Option (List (Generator D) × Nat) :=
  if type = .rotate then
    let (gs, mallocs) := madeOne env .satRotate mallocs
    let (move, mallocs) := madeOne env .posRandmove mallocs
    if gs.isEmpty then none else some (gs ++ move, mallocs)
  else some (madeOne env type mallocs)

theorem generator_next {type : GenType} {g : Generator D} (h : type.generator = some g) :
    g.next = none := by
  cases type <;> cases h <;> rfl

theorem createOne_owns (env : Env) (type : GenType) {m : GenMem D} {cells : List (List (GenCell D))}
    (hown : Owns m.heap cells) :
    ∃ cs m', createOne env type m = (entry cs, m') ∧
      (cs.map Prod.snd, m'.mallocs) = madeOne env type m.mallocs ∧
      Owns m'.heap (consChain cs cells) := by
  unfold createOne madeOne
  cases hg : (type.generator : Option (Generator D)) with
  | none => exact ⟨[], m, rfl, rfl, hown⟩
  | some g =>
    unfold newGenerator
    dsimp only
    by_cases hok : env.mallocOk m.mallocs = true
    · obtain ⟨a, h', hrun, hown'⟩ := hown.alloc env.alloc (generator_next hg)
      refine ⟨[(a, g)], ⟨h', m.mallocs + 1⟩, ?_, ?_, hown'⟩
      · rw [if_pos hok, hrun]
        rfl
      · rw [if_pos hok]
        rfl
    · refine ⟨[], { m with mallocs := m.mallocs + 1 }, ?_, ?_, hown⟩
      · rw [if_neg hok]
        rfl
      · rw [if_neg hok]
        rfl

omit [CTrig D] in
theorem nmeaGenAdd_null (h : Heap (Generator D)) (gen : Option Addr) :
    nmeaGenAdd h none gen = none := by
  unfold nmeaGenAdd
  cases h.live.length <;> rfl

theorem create_owns (env : Env) (type : GenType) {m : GenMem D} {cells : List (List (GenCell D))}
    (hown : Owns m.heap cells) :
    (made env type m.mallocs = none (α := List (Generator D) × Nat) ∧
        createGenerator env type m = none) ∨
      ∃ cs m', createGenerator env type m = some (entry cs, m') ∧
        made env type m.mallocs = some (cs.map Prod.snd, m'.mallocs) ∧
        Owns m'.heap (consChain cs cells) := by
  unfold createGenerator made
  by_cases hrotate : type = .rotate
  · obtain ⟨cs, m₁, hrun, hmade, hown₁⟩ := createOne_owns env .satRotate hown
    obtain ⟨ds, m₂, hrun₂, hmade₂, hown₂⟩ := createOne_owns env .posRandmove hown₁
    simp only [if_pos hrotate, ← hmade, ← hmade₂, hrun, hrun₂]
    by_cases hnil : cs = []
    · left
      subst hnil
      refine ⟨rfl, ?_⟩
      have hentry : entry ([] : List (GenCell D)) = none := rfl
      rw [hentry, nmeaGenAdd_null]
      rfl
    · right
      have hfirst : entry (cs ++ ds) = entry cs := by
        cases cs with
        | nil => exact absurd rfl hnil
        | cons c cs => rfl
      have hsome : ¬ (cs.map Prod.snd).isEmpty = true := by
        rwa [List.isEmpty_iff, List.map_eq_nil_iff]
      rw [consChain_of_ne_nil hnil] at hown₂
      obtain ⟨h', hadd, hown'⟩ := (hown₂.perm (consChain_swap cs ds cells)).join hnil
      refine ⟨cs ++ ds, ⟨h', m₂.mallocs⟩, ?_, ?_, ?_⟩
      · rw [hadd, hfirst]
        rfl
      · rw [if_neg hsome, List.map_append]
      · rw [consChain_of_ne_nil (List.append_ne_nil_of_left_ne_nil hnil ds)]
        exact hown'
  · obtain ⟨cs, m', hrun, hmade, hown'⟩ := createOne_owns env type hown
    right
    refine ⟨cs, m', ?_, ?_, hown'⟩
    · rw [if_neg hrotate, hrun]
    · rw [if_neg hrotate, hmade]

/-! ## Sequences of calls -/

/-- A call, on the generators that the caller has. `add i j` hands generator `j` over to generator
`i` of the others. A number that no generator has stands for no call. -/
inductive GenOp
  | create (type : GenType)
  | add (i j : Nat)
  | loop (i : Nat)
  | reset (i : Nat)
  | destroy (i : Nat)

/-- The memory, the generators that the caller has, what was read, and the one summary that all the
calls get and nothing else writes. -/
structure Owner (D : Type) where
  mem : GenMem D
  owned : List Addr := []
  reads : Reads := {}
  info : Info D

def Owner.start (info : Info D) : Owner D := { mem := { heap := ∅ }, info := info }

namespace Owner

def step (env : Env) (o : Outside) (s : Owner D) : GenOp → Option (Owner D)
  | .create type => do
    let (gen, m, r, info) ← nmeaCreateGenerator env o type s.mem s.reads s.info
    return ⟨m, gen.toList ++ s.owned, r, info⟩
  | .add i j =>
    match pick j s.owned with
    | none => some s
    | some (gen, rest) =>
      match pick i rest with
      | none => some s
      | some (dest, rest) => do
        let h ← nmeaGenAdd s.mem.heap (some dest) (some gen)
        return { s with mem := { s.mem with heap := h }, owned := dest :: rest }
  | .loop i =>
    match s.owned[i]? with
    | none => some s
    | some gen => do
      let (_, r, info) ← nmeaGenLoop s.mem.heap o (some gen) s.reads s.info
      return { s with reads := r, info := info }
  | .reset i =>
    match s.owned[i]? with
    | none => some s
    | some gen => do
      let (_, r, info) ← nmeaGenReset s.mem.heap o (some gen) s.reads s.info
      return { s with reads := r, info := info }
  | .destroy i =>
    match pick i s.owned with
    | none => some s
    | some (gen, rest) => do
      let m ← nmeaDestroyGenerator s.mem (some gen)
      return { s with mem := m, owned := rest }

def run (env : Env) (o : Outside) (s : Owner D) (ops : List GenOp) : Option (Owner D) :=
  ops.foldlM (step env o) s

end Owner

/-- The same with lists of generators for chains in the heap. -/
structure Gens (D : Type) where
  mallocs : Nat := 0
  chains : List (List (Generator D)) := []
  reads : Reads := {}
  info : Info D

namespace Gens

def step (env : Env) (o : Outside) (a : Gens D) : GenOp → Option (Gens D)
  | .create type => do
    let (gs, mallocs) ← made env type a.mallocs
    if gs.isEmpty then return { a with mallocs := mallocs }
    let (_, r, info) ← initAll o 1 gs a.reads (genZero a.info)
    return ⟨mallocs, gs :: a.chains, r, info⟩
  | .add i j =>
    match pick j a.chains with
    | none => some a
    | some (gs, rest) =>
      match pick i rest with
      | none => some a
      | some (dest, rest) => some { a with chains := (dest ++ gs) :: rest }
  | .loop i =>
    match a.chains[i]? with
    | none => some a
    | some gs => do
      let (_, r, info) ← loopAll o gs a.reads a.info
      return { a with reads := r, info := info }
  | .reset i =>
    match a.chains[i]? with
    | none => some a
    | some gs => do
      let (_, r, info) ← callIf (← gs.head?).resetCall 1 o a.reads a.info
      return { a with reads := r, info := info }
  | .destroy i =>
    match pick i a.chains with
    | none => some a
    | some (_, rest) => some { a with chains := rest }

def run (env : Env) (o : Outside) (a : Gens D) (ops : List GenOp) : Option (Gens D) :=
  ops.foldlM (step env o) a

end Gens

/-! ## One call -/

/-- The blocks of the heap are the generators of the chains, and the caller has their addresses. -/
structure Represents (s : Owner D) (a : Gens D) : Prop where
  mallocs : s.mem.mallocs = a.mallocs
  reads : s.reads = a.reads
  info : s.info = a.info
  cells : ∃ cells, Owns s.mem.heap cells ∧ s.owned.map some = cells.map entry ∧
    cells.map (fun cs => cs.map Prod.snd) = a.chains

section

variable {env : Env} {o : Outside} {m : GenMem D} {owned : List Addr} {r : Reads} {info : Info D}
  {cells : List (List (GenCell D))}

omit [CTrig D] in
theorem pick_owned (h : owned.map some = cells.map entry) (i : Nat) :
    pick i owned = none ∧ pick i cells = none ∨
      ∃ gen rest cs crest, pick i owned = some (gen, rest) ∧ pick i cells = some (cs, crest) ∧
        entry cs = some gen ∧ rest.map some = crest.map entry := by
  have hpick : pick i (owned.map some) = pick i (cells.map entry) := congrArg (pick i) h
  rw [pick_map, pick_map] at hpick
  cases ho : pick i owned with
  | none =>
    rw [ho] at hpick
    exact .inl ⟨rfl, Option.map_eq_none_iff.mp hpick.symm⟩
  | some p =>
    obtain ⟨gen, rest⟩ := p
    rw [ho] at hpick
    obtain ⟨⟨cs, crest⟩, hc, heq⟩ := Option.map_eq_some_iff.mp hpick.symm
    obtain ⟨hentry, hrest⟩ := Prod.mk.inj heq
    exact .inr ⟨gen, rest, cs, crest, rfl, hc, hentry, hrest.symm⟩

omit [CTrig D] in
theorem getElem?_owned (h : owned.map some = cells.map entry) (i : Nat) :
    owned[i]? = none ∧ cells[i]? = none ∨
      ∃ gen cs, owned[i]? = some gen ∧ cells[i]? = some cs ∧ entry cs = some gen := by
  have hget : (owned.map some)[i]? = (cells.map entry)[i]? := congrArg (·[i]?) h
  rw [List.getElem?_map, List.getElem?_map] at hget
  cases ho : owned[i]? with
  | none =>
    rw [ho] at hget
    exact .inl ⟨rfl, Option.map_eq_none_iff.mp hget.symm⟩
  | some gen =>
    rw [ho] at hget
    obtain ⟨cs, hc, hentry⟩ := Option.map_eq_some_iff.mp hget.symm
    exact .inr ⟨gen, cs, rfl, hc, hentry⟩

theorem create_refines (hown : Owns m.heap cells) (howned : owned.map some = cells.map entry)
    (type : GenType) :
    Option.Rel Represents ((⟨m, owned, r, info⟩ : Owner D).step env o (.create type))
      ((⟨m.mallocs, cells.map fun cs => cs.map Prod.snd, r, info⟩ : Gens D).step env o
        (.create type)) := by
  rw [Owner.step, Gens.step, nmeaCreateGenerator]
  dsimp only
  rcases create_owns env type hown with ⟨hmade, hcreate⟩ | ⟨cs, m', hcreate, hmade, hown'⟩
  · rw [hcreate, hmade]
    exact .none
  · rw [hcreate, hmade]
    simp only [Option.bind_eq_bind, Option.bind_some, List.isEmpty_map]
    by_cases hnil : cs = []
    · subst hnil
      exact .some ⟨rfl, rfl, rfl, cells, hown', howned, rfl⟩
    · rw [consChain_of_ne_nil hnil] at hown'
      obtain ⟨gen, hgen⟩ := Option.isSome_iff_exists.mp (entry_isSome.mpr hnil)
      have hinit : nmeaGenInit m'.heap o (entry cs) r info =
          initAll o 1 (cs.map Prod.snd) r (genZero info) :=
        genInitFrom_chain (hown'.chain cs List.mem_cons_self).2 o hown'.length_le _ _ _
      rw [if_pos (entry_isSome.mpr hnil), hinit,
        if_neg (show ¬ cs.isEmpty = true by rwa [List.isEmpty_iff])]
      cases initAll o 1 (cs.map Prod.snd) r (genZero info) with
      | none => exact .none
      | some p =>
        refine .some ⟨rfl, rfl, rfl, cs :: cells, hown', ?_, rfl⟩
        show ((entry cs).toList ++ owned).map some = entry cs :: cells.map entry
        rw [hgen, ← howned]
        rfl

theorem add_refines (hown : Owns m.heap cells) (howned : owned.map some = cells.map entry)
    (i j : Nat) :
    Option.Rel Represents ((⟨m, owned, r, info⟩ : Owner D).step env o (.add i j))
      ((⟨m.mallocs, cells.map fun cs => cs.map Prod.snd, r, info⟩ : Gens D).step env o
        (.add i j)) := by
  have hsame : Represents ⟨m, owned, r, info⟩
      ⟨m.mallocs, cells.map fun cs => cs.map Prod.snd, r, info⟩ :=
    ⟨rfl, rfl, rfl, cells, hown, howned, rfl⟩
  rw [Owner.step, Gens.step]
  dsimp only
  rw [pick_map]
  rcases pick_owned howned j with ⟨hgen, hds⟩ | ⟨gen, rest, ds, cells₁, hgen, hds, hdentry, hrest⟩
  · rw [hgen, hds]
    exact .some hsame
  · rw [hgen, hds]
    dsimp only [Option.map_some]
    rw [pick_map]
    rcases pick_owned hrest i with
      ⟨hdest, hcs⟩ | ⟨dest, rest₂, cs, cells₂, hdest, hcs, hcentry, hrest₂⟩
    · rw [hdest, hcs]
      exact .some hsame
    · rw [hdest, hcs]
      dsimp only [Option.map_some]
      have hall : Owns m.heap (ds :: cs :: cells₂) :=
        hown.perm ((pick_perm hds).trans ((pick_perm hcs).cons ds))
      have hdne := (hall.chain ds List.mem_cons_self).1
      have hcne := (hall.chain cs (List.mem_cons_of_mem ds List.mem_cons_self)).1
      have hboth : Owns m.heap (cs :: consChain ds cells₂) := by
        rw [consChain_of_ne_nil hdne]
        exact hall.perm (List.Perm.swap cs ds cells₂)
      obtain ⟨h', hadd, hown'⟩ := hboth.join hcne
      rw [hcentry, hdentry] at hadd
      rw [hadd]
      refine .some ⟨rfl, rfl, rfl, (cs ++ ds) :: cells₂, hown', ?_, ?_⟩
      · have hfirst : entry (cs ++ ds) = some dest := by
          rw [← hcentry]
          cases cs with
          | nil => exact absurd rfl hcne
          | cons c cs => rfl
        show some dest :: rest₂.map some = entry (cs ++ ds) :: cells₂.map entry
        rw [hfirst, hrest₂]
      · show (cs ++ ds).map Prod.snd :: _ = (cs.map Prod.snd ++ ds.map Prod.snd) :: _
        rw [List.map_append]

theorem loop_refines (hown : Owns m.heap cells) (howned : owned.map some = cells.map entry)
    (i : Nat) :
    Option.Rel Represents ((⟨m, owned, r, info⟩ : Owner D).step env o (.loop i))
      ((⟨m.mallocs, cells.map fun cs => cs.map Prod.snd, r, info⟩ : Gens D).step env o
        (.loop i)) := by
  rw [Owner.step, Gens.step]
  dsimp only
  rw [List.getElem?_map]
  rcases getElem?_owned howned i with ⟨hgen, hcs⟩ | ⟨gen, cs, hgen, hcs, hentry⟩
  · rw [hgen, hcs]
    exact .some ⟨rfl, rfl, rfl, cells, hown, howned, rfl⟩
  · rw [hgen, hcs]
    dsimp only [Option.map_some]
    obtain ⟨-, hc⟩ := hown.chain cs (List.mem_of_getElem? hcs)
    have hloop : nmeaGenLoop m.heap o (some gen) r info = loopAll o (cs.map Prod.snd) r info := by
      rw [← hentry]
      exact genLoopFrom_chain hc o (hown.length_le_of_mem (List.mem_of_getElem? hcs)) r info
    rw [hloop]
    cases loopAll o (cs.map Prod.snd) r info with
    | none => exact .none
    | some p => exact .some ⟨rfl, rfl, rfl, cells, hown, howned, rfl⟩

theorem reset_refines (hown : Owns m.heap cells) (howned : owned.map some = cells.map entry)
    (i : Nat) :
    Option.Rel Represents ((⟨m, owned, r, info⟩ : Owner D).step env o (.reset i))
      ((⟨m.mallocs, cells.map fun cs => cs.map Prod.snd, r, info⟩ : Gens D).step env o
        (.reset i)) := by
  rw [Owner.step, Gens.step]
  dsimp only
  rw [List.getElem?_map]
  rcases getElem?_owned howned i with ⟨hgen, hcs⟩ | ⟨gen, cs, hgen, hcs, hentry⟩
  · rw [hgen, hcs]
    exact .some ⟨rfl, rfl, rfl, cells, hown, howned, rfl⟩
  · rw [hgen, hcs]
    dsimp only [Option.map_some]
    obtain ⟨-, hc⟩ := hown.chain cs (List.mem_of_getElem? hcs)
    cases cs with
    | nil => cases hentry
    | cons c cs =>
      cases hentry
      have hreset : nmeaGenReset m.heap o (some c.1) r info = callIf c.2.resetCall 1 o r info := by
        unfold nmeaGenReset
        simp only [Option.bind_eq_bind, Option.bind_some]
        rw [(chainAt_cons.mp hc).1]
        rfl
      rw [hreset]
      simp only [List.map_cons, List.head?_cons, Option.bind_eq_bind, Option.bind_some]
      cases callIf c.2.resetCall 1 o r info with
      | none => exact .none
      | some p => exact .some ⟨rfl, rfl, rfl, cells, hown, howned, rfl⟩

theorem destroy_refines (hown : Owns m.heap cells) (howned : owned.map some = cells.map entry)
    (i : Nat) :
    Option.Rel Represents ((⟨m, owned, r, info⟩ : Owner D).step env o (.destroy i))
      ((⟨m.mallocs, cells.map fun cs => cs.map Prod.snd, r, info⟩ : Gens D).step env o
        (.destroy i)) := by
  rw [Owner.step, Gens.step]
  dsimp only
  rw [pick_map]
  rcases pick_owned howned i with ⟨hgen, hcs⟩ | ⟨gen, rest, cs, cells', hgen, hcs, hentry, hrest⟩
  · rw [hgen, hcs]
    exact .some ⟨rfl, rfl, rfl, cells, hown, howned, rfl⟩
  · rw [hgen, hcs]
    dsimp only [Option.map_some]
    obtain ⟨h', hrun, hown'⟩ := (hown.perm (pick_perm hcs)).destroy
    rw [hentry] at hrun
    unfold nmeaDestroyGenerator
    rw [hrun]
    exact .some ⟨rfl, rfl, rfl, cells', hown', hrest, rfl⟩

end

/-- **Each call does on the heap what it does on the lists**, also where it faults. -/
theorem step_refines (env : Env) (o : Outside) {s : Owner D} {a : Gens D} (h : Represents s a)
    (op : GenOp) : Option.Rel Represents (s.step env o op) (a.step env o op) := by
  obtain ⟨m, owned, r, info⟩ := s
  obtain ⟨mallocs, chains, r', info'⟩ := a
  obtain ⟨hmallocs, hreads, hinfo, cells, hown, howned, hchains⟩ := h
  dsimp only at hmallocs hreads hinfo hown howned hchains
  subst hmallocs hreads hinfo hchains
  cases op with
  | create type => exact create_refines hown howned type
  | add i j => exact add_refines hown howned i j
  | loop i => exact loop_refines hown howned i
  | reset i => exact reset_refines hown howned i
  | destroy i => exact destroy_refines hown howned i

theorem run_refines (env : Env) (o : Outside) {s : Owner D} {a : Gens D} (h : Represents s a)
    (ops : List GenOp) : Option.Rel Represents (s.run env o ops) (a.run env o ops) := by
  induction ops generalizing s a with
  | nil => exact .some h
  | cons op ops ih =>
    have hstep := step_refines env o h op
    rw [Owner.run, Gens.run, List.foldlM_cons, List.foldlM_cons]
    revert hstep
    cases s.step env o op with
    | none =>
      intro hstep
      generalize a.step env o op = x at hstep
      cases hstep
      exact .none
    | some s' =>
      intro hstep
      generalize a.step env o op = x at hstep
      cases hstep with
      | some hrep => exact ih hrep

omit [CTrig D] in
theorem start_represents (info : Info D) :
    Represents (.start info) ({ info := info } : Gens D) :=
  ⟨rfl, rfl, rfl, [], ⟨fun _ h => absurd h List.not_mem_nil, List.Perm.refl _⟩, rfl, rfl⟩

end

end RttNmea
