import RttNmea.GenLife

/-!
# When the calls on generators fault

The functions that generator.c stores always go through, so only one thing can happen to a caller
who uses the generators that nmea_create_generator returned and did not destroy them: ROTATE follows
a null pointer without memory for the first of its two generators.
-/

namespace RttNmea

open Heap

variable {D : Type}

/-! ## Chains of functions that go through -/

theorem initAll_sound (o : Outside) {gs : List (Generator D)} (hgs : ∀ g ∈ gs, BuiltIn g)
    (r : Reads) {info : Info D} (h : InView info) :
    ∃ r' info', initAll o 1 gs r info = some (1, r', info') ∧ InView info' := by
  induction gs generalizing r info with
  | nil => exact ⟨r, info, rfl, h⟩
  | cons g gs ih =>
    obtain ⟨r₁, info₁, hcall, hview⟩ := (hgs g List.mem_cons_self).init o r info h
    rw [initAll, if_neg (by decide), hcall]
    exact ih (fun g' hg' => hgs g' (List.mem_cons_of_mem g hg')) r₁ hview

theorem loopAll_sound (o : Outside) {gs : List (Generator D)} (hgs : ∀ g ∈ gs, BuiltIn g)
    (hne : gs ≠ []) (r : Reads) {info : Info D} (h : InView info) :
    ∃ r' info', loopAll o gs r info = some (1, r', info') ∧ InView info' := by
  induction gs generalizing r info with
  | nil => exact absurd rfl hne
  | cons g gs ih =>
    obtain ⟨r₁, info₁, hcall, hview⟩ := (hgs g List.mem_cons_self).loop o r info h
    rw [loopAll, hcall]
    simp only [Option.bind_eq_bind, Option.bind_some]
    by_cases hlast : gs = []
    · rw [if_neg fun hmore => hmore.2 hlast]
      exact ⟨r₁, info₁, rfl, hview⟩
    · rw [if_pos ⟨by decide, hlast⟩]
      exact ih (fun g' hg' => hgs g' (List.mem_cons_of_mem g hg')) hlast r₁ hview

/-- The generators are those of generator.c, and the summary they work on has its satellites in
the table. -/
structure Working (a : Gens D) : Prop where
  chain : ∀ gs ∈ a.chains, gs ≠ [] ∧ ∀ g ∈ gs, BuiltIn g
  inView : a.chains ≠ [] → InView a.info

theorem Working.rest {a : Gens D} (h : Working a) {i : Nat} {gs : List (Generator D)}
    {rest : List (List (Generator D))} (hpick : pick i a.chains = some (gs, rest)) :
    (∀ hs ∈ gs :: rest, hs ≠ [] ∧ ∀ g ∈ hs, BuiltIn g) ∧ InView a.info := by
  have hperm := pick_perm hpick
  refine ⟨fun hs hmem => h.chain hs (hperm.mem_iff.mpr hmem), h.inView ?_⟩
  intro hnil
  rw [hnil] at hperm
  exact absurd hperm.nil_eq (List.cons_ne_nil _ _).symm

/-! ## Creating -/

/-- How often a case of `__nmea_create_generator` calls rt_malloc. -/
def GenType.blocks : GenType → Nat
  | .rotate => 2
  | .last => 0
  | .noise | .static | .satStatic | .satRotate | .posRandmove => 1

/-- At some time ROTATE is created and there is no memory for the first of its generators. -/
def Trips (env : Env) : Nat → List GenOp → Prop
  | _, [] => False
  | mallocs, .create type :: ops =>
    type = .rotate ∧ env.mallocOk mallocs = false ∨ Trips env (mallocs + type.blocks) ops
  | mallocs, _ :: ops => Trips env mallocs ops

section

variable [CTrig D]

theorem madeOne_spec (env : Env) {type : GenType} (htype : type ≠ .rotate) (mallocs : Nat) :
    (madeOne env type mallocs : List (Generator D) × Nat).2 = mallocs + type.blocks ∧
      ∀ g ∈ (madeOne env type mallocs : List (Generator D) × Nat).1, BuiltIn g := by
  unfold madeOne
  cases hg : (type.generator : Option (Generator D)) with
  | none =>
    cases type with
    | rotate => exact absurd rfl htype
    | last => exact ⟨rfl, fun g h => absurd h List.not_mem_nil⟩
    | noise | static | satStatic | satRotate | posRandmove => cases hg
  | some g =>
    refine ⟨?_, ?_⟩
    · cases type with
      | rotate | last => cases hg
      | noise | static | satStatic | satRotate | posRandmove => rfl
    · intro g' hmem
      dsimp only at hmem
      split at hmem
      · rw [List.mem_singleton.mp hmem]
        exact generator_builtIn hg
      · cases hmem

theorem made_spec (env : Env) (type : GenType) (mallocs : Nat) :
    type = .rotate ∧ env.mallocOk mallocs = false ∧
        (made env type mallocs : Option (List (Generator D) × Nat)) = none ∨
      ¬ (type = .rotate ∧ env.mallocOk mallocs = false) ∧
        ∃ gs : List (Generator D), made env type mallocs = some (gs, mallocs + type.blocks) ∧
          ∀ g ∈ gs, BuiltIn g := by
  unfold made
  by_cases hrotate : type = .rotate
  · subst hrotate
    obtain ⟨hcount, hfirst⟩ :=
      madeOne_spec (D := D) env (show GenType.satRotate ≠ .rotate by decide) mallocs
    obtain ⟨hcount₂, hmove⟩ :=
      madeOne_spec (D := D) env (show GenType.posRandmove ≠ .rotate by decide) (mallocs + 1)
    have hone : (GenType.satRotate).blocks = 1 := rfl
    rw [hone] at hcount
    dsimp only
    rw [if_pos rfl, hcount, hcount₂]
    by_cases hok : env.mallocOk mallocs = true
    · right
      have hsome : ¬ (madeOne env .satRotate mallocs : List (Generator D) × Nat).1.isEmpty := by
        simp [madeOne, GenType.generator, hok]
      refine ⟨fun h => absurd (hok.symm.trans h.2) (by decide), _, if_neg hsome, ?_⟩
      intro g hg
      rcases List.mem_append.mp hg with hg | hg
      · exact hfirst g hg
      · exact hmove g hg
    · left
      have hnone : (madeOne env .satRotate mallocs : List (Generator D) × Nat).1.isEmpty := by
        simp [madeOne, GenType.generator, hok]
      exact ⟨rfl, by simpa using hok, if_pos hnone⟩
  · right
    obtain ⟨hcount, hbuilt⟩ := madeOne_spec (D := D) env hrotate mallocs
    refine ⟨fun h => hrotate h.1, _, ?_, hbuilt⟩
    rw [if_neg hrotate, ← hcount]

theorem genZero_inView (info : Info D) : InView (genZero info) :=
  inView_ofNat (n := 0) (by decide) rfl

/-- A call faults in the one case, or goes through and leaves generators that work. -/
theorem step_working (env : Env) (o : Outside) {a : Gens D} (h : Working a) (op : GenOp) :
    (a.step env o op = none ∧ ∀ ops, Trips env a.mallocs (op :: ops)) ∨
      ∃ a', a.step env o op = some a' ∧ Working a' ∧
        ∀ ops, Trips env a.mallocs (op :: ops) ↔ Trips env a'.mallocs ops := by
  cases op with
  | create type =>
    rcases made_spec (D := D) env type a.mallocs with
      ⟨hrotate, hno, hmade⟩ | ⟨hok, gs, hmade, hbuilt⟩
    · left
      refine ⟨?_, fun ops => .inl ⟨hrotate, hno⟩⟩
      rw [Gens.step]
      dsimp only
      rw [hmade]
      rfl
    · right
      have htrips : ∀ ops, Trips env a.mallocs (.create type :: ops) ↔
          Trips env (a.mallocs + type.blocks) ops := fun ops => or_iff_right hok
      rw [Gens.step]
      dsimp only
      rw [hmade]
      simp only [Option.bind_eq_bind, Option.bind_some]
      by_cases hnil : gs.isEmpty = true
      · rw [if_pos hnil]
        exact ⟨_, rfl, ⟨h.chain, h.inView⟩, htrips⟩
      · obtain ⟨r', info', hinit, hview⟩ :=
          initAll_sound o hbuilt a.reads (genZero_inView a.info)
        rw [if_neg hnil, hinit]
        refine ⟨_, rfl, ⟨?_, fun _ => hview⟩, htrips⟩
        intro hs hmem
        rcases List.mem_cons.mp hmem with rfl | hmem
        · exact ⟨fun heq => hnil (by rw [heq]; rfl), hbuilt⟩
        · exact h.chain hs hmem
  | add i j =>
    right
    rw [Gens.step]
    cases hj : pick j a.chains with
    | none => exact ⟨a, rfl, h, fun _ => Iff.rfl⟩
    | some p =>
      obtain ⟨gs, rest⟩ := p
      obtain ⟨hchains, hview⟩ := h.rest hj
      dsimp only
      cases hi : pick i rest with
      | none => exact ⟨a, rfl, h, fun _ => Iff.rfl⟩
      | some p =>
        obtain ⟨dest, rest'⟩ := p
        refine ⟨_, rfl, ⟨?_, fun _ => hview⟩, fun _ => Iff.rfl⟩
        have hperm := pick_perm hi
        obtain ⟨-, hgs⟩ := hchains gs List.mem_cons_self
        obtain ⟨hne, hdest⟩ := hchains dest
          (List.mem_cons_of_mem gs (hperm.mem_iff.mpr List.mem_cons_self))
        intro hs hmem
        rcases List.mem_cons.mp hmem with rfl | hmem
        · refine ⟨List.append_ne_nil_of_left_ne_nil hne gs, fun g hg => ?_⟩
          rcases List.mem_append.mp hg with hg | hg
          · exact hdest g hg
          · exact hgs g hg
        · exact hchains hs
            (List.mem_cons_of_mem gs (hperm.mem_iff.mpr (List.mem_cons_of_mem dest hmem)))
  | loop i =>
    right
    rw [Gens.step]
    dsimp only
    cases hi : a.chains[i]? with
    | none => exact ⟨a, rfl, h, fun _ => Iff.rfl⟩
    | some gs =>
      have hmem := List.mem_of_getElem? hi
      obtain ⟨hne, hbuilt⟩ := h.chain gs hmem
      obtain ⟨r', info', hloop, hview⟩ :=
        loopAll_sound o hbuilt hne a.reads (h.inView (List.ne_nil_of_mem hmem))
      dsimp only
      rw [hloop]
      exact ⟨_, rfl, ⟨h.chain, fun _ => hview⟩, fun _ => Iff.rfl⟩
  | reset i =>
    right
    rw [Gens.step]
    dsimp only
    cases hi : a.chains[i]? with
    | none => exact ⟨a, rfl, h, fun _ => Iff.rfl⟩
    | some gs =>
      have hmem := List.mem_of_getElem? hi
      obtain ⟨hne, hbuilt⟩ := h.chain gs hmem
      cases gs with
      | nil => exact absurd rfl hne
      | cons g gs =>
        obtain ⟨r', info', hreset, hview⟩ := (hbuilt g List.mem_cons_self).reset o a.reads a.info
          (h.inView (List.ne_nil_of_mem hmem))
        dsimp only [List.head?_cons, Option.bind_eq_bind, Option.bind_some]
        rw [hreset]
        exact ⟨_, rfl, ⟨h.chain, fun _ => hview⟩, fun _ => Iff.rfl⟩
  | destroy i =>
    right
    rw [Gens.step]
    cases hi : pick i a.chains with
    | none => exact ⟨a, rfl, h, fun _ => Iff.rfl⟩
    | some p =>
      obtain ⟨gs, rest⟩ := p
      obtain ⟨hchains, hview⟩ := h.rest hi
      exact ⟨_, rfl, ⟨fun hs hmem => hchains hs (List.mem_cons_of_mem gs hmem), fun _ => hview⟩,
        fun _ => Iff.rfl⟩

theorem run_trips (env : Env) (o : Outside) {a : Gens D} (h : Working a) (ops : List GenOp) :
    a.run env o ops = none ↔ Trips env a.mallocs ops := by
  induction ops generalizing a with
  | nil =>
    constructor
    · intro hrun
      cases hrun
    · intro htrips
      cases htrips
  | cons op ops ih =>
    rw [Gens.run, List.foldlM_cons]
    rcases step_working env o h op with ⟨hnone, htrips⟩ | ⟨a', hstep, hworking, htrips⟩
    · rw [hnone]
      exact ⟨fun _ => htrips ops, fun _ => rfl⟩
    · rw [hstep, htrips ops]
      exact ih hworking

omit [CTrig D] in
/-- As many blocks are in use as the caller has generators. -/
theorem Represents.ledger {s : Owner D} {a : Gens D} (h : Represents s a) :
    s.mem.heap.live.length = (a.chains.map List.length).sum := by
  obtain ⟨cells, hown, -, hchains⟩ := h.cells
  have hlengths : (cells.map fun cs => (places cs).length) = a.chains.map List.length := by
    rw [← hchains, List.map_map]
    congr 1
    funext cs
    rw [Function.comp_apply, places, List.length_map, List.length_map]
  rw [hown.live.length_eq, List.length_flatMap, hlengths]

/-- **Whatever the caller does with its generators, in whatever order, it is what the same calls do
on lists of generators, and every block is freed with the generator it belongs to.** The calls fault
just if ROTATE is created without memory for the first of its generators. -/
theorem generators_owned (env : Env) (o : Outside) (info : Info D) (ops : List GenOp) :
    ((Owner.start info).run env o ops = none ↔ Trips env 0 ops) ∧
      ∀ s, (Owner.start info).run env o ops = some s →
        ∃ a, ({ info := info } : Gens D).run env o ops = some a ∧ Represents s a ∧
          s.mem.heap.live.length = (a.chains.map List.length).sum := by
  have hrel := run_refines env o (start_represents info) ops
  have hworking : Working ({ info := info } : Gens D) :=
    ⟨fun _ h => absurd h List.not_mem_nil, fun h => absurd rfl h⟩
  have htrips := run_trips env o hworking ops
  revert hrel htrips
  cases (Owner.start info).run env o ops with
  | none =>
    generalize ({ info := info } : Gens D).run env o ops = x
    intro hrel htrips
    cases hrel
    exact ⟨⟨fun _ => htrips.mp rfl, fun _ => rfl⟩, fun s hs => nomatch hs⟩
  | some s =>
    generalize ({ info := info } : Gens D).run env o ops = x
    intro hrel htrips
    cases hrel with
    | some hrep =>
      refine ⟨?_, ?_⟩
      · rw [← htrips]
        simp
      · intro s' hs'
        cases hs'
        exact ⟨_, rfl, hrep, hrep.ledger⟩

end

end RttNmea
