import RttNmea.GpsParse
import RttNmea.GsvCycle
import RttNmea.Corruption

/-!
# The sections of a message

What data_conversion stores. It returns the number of sections minus one, so that its callers
may read up to that section, except if the first '*' comes before the first ',': then the loop
does not run, and 0 - 1 is 255.
-/

namespace RttNmea

open CText

/-- There are a '*' and a ',', and the first '*' comes first. -/
def StarFirst (input : List Byte) : Prop :=
  ∃ ptrEnd ptr, strchr (text input) 0 (ascii '*') = some ptrEnd ∧
    strchr (text input) 0 gpsSeparator = some ptr ∧ ptrEnd < ptr

/-- What the callers of data_conversion rely on: sections 0 to the number it returns are set
to places inside the input, and there is room for them in output. -/
def SectionsSet (input : List Byte) (sectionMaxCount : UInt8) : Prop :=
  let r := dataConversion (some input) sectionMaxCount
  1 ≤ r.1 → (∀ k ≤ r.1.toNat, ∃ p ∈ r.2[k]?, p < (text input).length) ∧ r.1 < sectionMaxCount

/-! ## data_conversion -/

theorem strchr_some {s : List Byte} {start p : Nat} {c : Byte} (h : strchr s start c = some p) :
    start ≤ p ∧ p < s.length ∧ s[p]? = some c := by
  unfold strchr at h
  split at h
  · rename_i hmem
    have hlt := List.idxOf_lt_length_iff.mpr hmem
    have hget := List.getElem_idxOf hlt
    have hp : start + (s.drop start).idxOf c = p := Option.some.inj h
    have hlen : (s.drop start).length = s.length - start := List.length_drop
    refine ⟨by omega, by omega, ?_⟩
    have hdrop := List.getElem?_eq_getElem hlt
    rw [hget, List.getElem?_drop, hp] at hdrop
    exact hdrop
  · cases h

theorem sections_length_le (s : List Byte) (ptrEnd room : Nat) (ptr : Option Nat) :
    (sections s ptrEnd room ptr).length ≤ room := by
  induction room generalizing ptr with
  | zero => exact Nat.le_refl 0
  | succ room ih =>
    cases ptr with
    | none => exact Nat.zero_le _
    | some p =>
      rw [sections]
      split
      · exact Nat.succ_le_succ (ih _)
      · exact Nat.zero_le _

theorem sections_inside {s : List Byte} {ptrEnd room : Nat} {ptr : Option Nat} :
    ∀ q ∈ sections s ptrEnd room ptr, q ≤ ptrEnd := by
  induction room generalizing ptr with
  | zero => exact fun q hq => absurd hq List.not_mem_nil
  | succ room ih =>
    cases ptr with
    | none => exact fun q hq => absurd hq List.not_mem_nil
    | some p =>
      rw [sections]
      split
      · rename_i hlt
        intro q hq
        rcases List.mem_cons.mp hq with rfl | hq
        · split
          · exact Nat.le_of_lt hlt
          · exact hlt
        · exact ih q hq
      · exact fun q hq => absurd hq List.not_mem_nil

theorem toNat_pred {n : Nat} (hpos : n ≠ 0) (hlt : n < 256) : (UInt8.ofNat n - 1).toNat = n - 1 := by
  have hone : (1 : UInt8) ≤ UInt8.ofNat n := by
    rw [UInt8.le_iff_toNat_le, UInt8.toNat_ofNat_of_lt' hlt]
    exact Nat.one_le_iff_ne_zero.mpr hpos
  rw [UInt8.toNat_sub_of_le _ _ hone, UInt8.toNat_ofNat_of_lt' hlt]
  rfl

/-- What data_conversion does. -/
theorem conversion_cases (input : List Byte) {sectionMaxCount : UInt8}
    (hmax : 1 ≤ sectionMaxCount) :
    (StarFirst input ∧ dataConversion (some input) sectionMaxCount = (255, [])) ∨
      ¬ StarFirst input ∧ (dataConversion (some input) sectionMaxCount = (0, []) ∨
        ∃ output, dataConversion (some input) sectionMaxCount =
            (UInt8.ofNat output.length - 1, output) ∧ output ≠ [] ∧
          output.length ≤ sectionMaxCount.toNat ∧ ∀ q ∈ output, q < (text input).length) := by
  unfold dataConversion StarFirst
  dsimp only
  cases hptr : strchr (text input) 0 gpsSeparator with
  | none => exact .inr ⟨fun ⟨_, _, _, h, _⟩ => (nomatch h), .inl rfl⟩
  | some ptr =>
    cases hend : strchr (text input) 0 (ascii '*') with
    | none => exact .inr ⟨fun ⟨_, _, h, _⟩ => (nomatch h), .inl rfl⟩
    | some ptrEnd =>
      have hfirst : (∃ e p, some ptrEnd = some e ∧ some ptr = some p ∧ e < p) ↔ ptrEnd < ptr :=
        ⟨fun ⟨_, _, he, hp, h⟩ => by cases he; cases hp; exact h, fun h => ⟨_, _, rfl, rfl, h⟩⟩
      obtain ⟨room, hroom⟩ : ∃ room, sectionMaxCount.toNat = room + 1 := by
        have := UInt8.le_iff_toNat_le.mp hmax
        have hone : (1 : UInt8).toNat = 1 := rfl
        exact ⟨sectionMaxCount.toNat - 1, by omega⟩
      have hinside := (strchr_some hend).2.1
      rw [hfirst]
      dsimp only
      by_cases hlt : ptr < ptrEnd
      · right
        refine ⟨by omega, ?_⟩
        split
        · exact .inl rfl
        · refine .inr ⟨_, rfl, ?_, sections_length_le _ _ _ _, ?_⟩
          · rw [hroom, sections, if_pos hlt]
            exact List.cons_ne_nil _ _
          · intro q hq
            exact Nat.lt_of_le_of_lt (sections_inside q hq) hinside
      · left
        have hne : ptrEnd ≠ ptr := by
          rintro rfl
          have hcomma := (strchr_some hptr).2.2
          rw [(strchr_some hend).2.2] at hcomma
          exact absurd hcomma (by decide)
        have hclose : ¬ (ptrEnd : Int) - ptr > maxNmeaPackLen := by
          unfold maxNmeaPackLen
          omega
        rw [if_neg hclose, hroom, sections, if_neg hlt]
        exact ⟨by omega, rfl⟩

/-- The count wraps if nothing is stored. -/
theorem conversion_starFirst {input : List Byte} (h : StarFirst input) {sectionMaxCount : UInt8}
    (hmax : 1 ≤ sectionMaxCount) : dataConversion (some input) sectionMaxCount = (255, []) := by
  rcases conversion_cases input hmax with hrun | hrun
  · exact hrun.2
  · exact absurd h hrun.1

/-- **The sections a caller may read are set exactly if no '*' comes before the first ','.** -/
theorem sectionsSet_iff (input : List Byte) {sectionMaxCount : UInt8} (hmax : 1 ≤ sectionMaxCount) :
    SectionsSet input sectionMaxCount ↔ ¬ StarFirst input := by
  unfold SectionsSet
  dsimp only
  rcases conversion_cases input hmax with ⟨hfirst, hrun⟩ | ⟨hfirst, hrun | hrun⟩
  · rw [hrun]
    refine iff_of_false (fun h => ?_) fun h => h hfirst
    obtain ⟨p, hp, -⟩ := (h (by decide)).1 0 (Nat.zero_le _)
    cases hp
  · rw [hrun]
    exact iff_of_true (fun h => absurd h (by decide)) hfirst
  · obtain ⟨output, hrun, hne, hlen, hin⟩ := hrun
    rw [hrun]
    refine iff_of_true (fun _ => ?_) hfirst
    have hpos : output.length ≠ 0 := fun h => hne (List.length_eq_zero_iff.mp h)
    have hlt : output.length < 256 := Nat.lt_of_le_of_lt hlen sectionMaxCount.toNat_lt
    have hcount := toNat_pred hpos hlt
    constructor
    · intro k hk
      have hk : k < output.length := by
        dsimp only at hk
        omega
      exact ⟨output[k], List.getElem?_eq_getElem hk, hin _ (List.getElem_mem hk)⟩
    · rw [UInt8.lt_iff_toNat_lt, hcount]
      omega

/-! ## Fields -/

/-- The section starts with the field, and a ',' or a '*' stands behind it. -/
def SectionOf (s f : List Byte) (p : Nat) : Prop :=
  ∃ sep rest, (sep = comma ∨ sep = star) ∧ s.drop p = f ++ sep :: rest

theorem strchr_here (pre rest : List Byte) (c : Byte) :
    strchr (pre ++ c :: rest) pre.length c = some pre.length := by
  unfold strchr
  rw [List.drop_left, if_pos List.mem_cons_self, List.idxOf_cons_self, Nat.add_zero]

/-- Bytes without a `c` are passed over. -/
theorem strchr_skip {pre f : List Byte} {c : Byte} (hc : c ∉ f) (rest : List Byte) :
    strchr (pre ++ (f ++ rest)) pre.length c =
      strchr (pre ++ (f ++ rest)) (pre ++ f).length c := by
  have hdrop : (pre ++ (f ++ rest)).drop (pre ++ f).length = rest := by
    rw [← List.append_assoc, List.drop_left]
  unfold strchr
  rw [List.drop_left, hdrop]
  by_cases hmem : c ∈ rest
  · rw [if_pos (List.mem_append_right _ hmem), if_pos hmem, List.idxOf_append_of_notMem hc,
      List.length_append, Nat.add_assoc]
  · have hnone : c ∉ f ++ rest := by simp [hc, hmem]
    rw [if_neg hnone, if_neg hmem]

/-- Nothing is stored from the '*' on. -/
theorem sections_end (s pre : List Byte) (room : Nat) :
    sections s pre.length room (strchr s pre.length gpsSeparator) = [] := by
  cases room with
  | zero => rfl
  | succ room =>
    cases hptr : strchr s pre.length gpsSeparator with
    | none => rfl
    | some p =>
      have := (strchr_some hptr).1
      rw [sections, if_neg (by omega)]

/-- **Each field of a message has its section**, as far as there is room. -/
theorem sections_fields {fs : List (List Byte)} (hfs : ∀ f ∈ fs, comma ∉ f)
    (pre after : List Byte) (room : Nat) :
    let s := pre ++ (fieldsText fs ++ star :: after)
    List.Forall₂ (SectionOf s) (fs.take room)
      (sections s (pre ++ fieldsText fs).length room (strchr s pre.length gpsSeparator)) := by
  induction fs generalizing pre room with
  | nil =>
    intro s
    have hpre : pre ++ fieldsText [] = pre := List.append_nil pre
    rw [List.take_nil, hpre, sections_end]
    exact .nil
  | cons f fs ih =>
    intro s
    cases room with
    | zero => exact .nil
    | succ room =>
      have hf := hfs f List.mem_cons_self
      have htext : fieldsText (f :: fs) = comma :: (f ++ fieldsText fs) := rfl
      let rest := fieldsText fs ++ star :: after
      have hs : s = pre ++ comma :: (f ++ rest) := by
        show pre ++ (fieldsText (f :: fs) ++ star :: after) = _
        rw [htext]
        simp [rest]
      have hs' : s = (pre ++ [comma]) ++ (f ++ rest) := by
        rw [hs]
        simp
      have hs'' : s = (pre ++ comma :: f) ++ rest := by
        rw [hs]
        simp
      have hhere : strchr s pre.length gpsSeparator = some pre.length := by
        rw [hs]
        exact strchr_here pre _ comma
      have hend : (pre ++ fieldsText (f :: fs)).length =
          ((pre ++ comma :: f) ++ fieldsText fs).length := by
        rw [htext]
        simp
      have hlt : pre.length < (pre ++ fieldsText (f :: fs)).length := by
        rw [htext, List.length_append, List.length_cons]
        omega
      have hnext : strchr s (pre.length + 1) gpsSeparator =
          strchr s (pre ++ comma :: f).length gpsSeparator := by
        have hlen : pre.length + 1 = (pre ++ [comma]).length := by simp
        have hlen' : (pre ++ comma :: f).length = ((pre ++ [comma]) ++ f).length := by simp
        rw [hlen, hlen', hs']
        exact strchr_skip hf rest
      have htail := ih (fun g hg => hfs g (List.mem_cons_of_mem _ hg)) (pre ++ comma :: f) room
      have hrest : ∃ sep zs, (sep = comma ∨ sep = star) ∧ rest = sep :: zs := by
        cases fs with
        | nil => exact ⟨star, after, .inr rfl, rfl⟩
        | cons g gs => exact ⟨comma, _, .inl rfl, rfl⟩
      obtain ⟨sep, zs, hsep, hzs⟩ := hrest
      rw [← show s = (pre ++ comma :: f) ++ (fieldsText fs ++ star :: after) from hs''] at htail
      rw [hhere, sections, if_pos hlt, hnext, hend, List.take_succ_cons]
      refine .cons ?_ htail
      have hdrop : s.drop (pre.length + 1) = f ++ sep :: zs := by
        have hlen : pre.length + 1 = (pre ++ [comma]).length := by simp
        rw [hs', hlen, List.drop_left, hzs]
      split
      · -- an empty field, and the section starts at its own comma
        rename_i hboth
        have hsecond : (s.drop (pre.length + 1)).head? = some comma := by
          rw [List.head?_drop]
          exact hboth.2
        have hnil : f = [] := by
          cases f with
          | nil => rfl
          | cons b f =>
            rw [hdrop] at hsecond
            have hb : b = comma := Option.some.inj hsecond
            exact absurd (hb ▸ List.mem_cons_self) hf
        subst hnil
        refine ⟨comma, rest, .inl rfl, ?_⟩
        rw [hs, List.drop_left]
        rfl
      · exact ⟨sep, zs, hsep, hdrop⟩

/-- A message as data_conversion takes it: fields behind a comma each, up to the '*'. -/
theorem conversion_fields {input pre after : List Byte} {fs : List (List Byte)}
    (hinput : text input = pre ++ (fieldsText fs ++ star :: after)) (hne : fs ≠ [])
    (hpre : comma ∉ pre ∧ star ∉ pre) (hfs : ∀ f ∈ fs, comma ∉ f ∧ star ∉ f)
    (hlen : (fieldsText fs).length ≤ maxNmeaPackLen) (sectionMaxCount : UInt8) :
    ∃ output, dataConversion (some input) sectionMaxCount =
        (UInt8.ofNat output.length - 1, output) ∧
      List.Forall₂ (SectionOf (text input)) (fs.take sectionMaxCount.toNat) output := by
  have hcommas : ∀ f ∈ fs, comma ∉ f := fun f hf => (hfs f hf).1
  have hstar : star ∉ fieldsText fs := by
    intro hmem
    obtain ⟨f, hf, hb⟩ := List.mem_flatMap.mp hmem
    rcases List.mem_cons.mp hb with hb | hb
    · exact absurd hb (by decide)
    · exact (hfs f hf).2 hb
  have hskip : strchr (text input) 0 gpsSeparator = strchr (text input) pre.length gpsSeparator := by
    rw [hinput]
    exact @strchr_skip [] pre comma hpre.1 _
  have hfirst : strchr (text input) pre.length gpsSeparator = some pre.length := by
    obtain ⟨f, fs, rfl⟩ := List.exists_cons_of_ne_nil hne
    rw [hinput]
    exact strchr_here pre _ comma
  have hend : strchr (text input) 0 (ascii '*') = some (pre ++ fieldsText fs).length := by
    have hplain : star ∉ pre ++ fieldsText fs := by simp [hpre.2, hstar]
    have hskip := @strchr_skip [] (pre ++ fieldsText fs) star hplain (star :: after)
    rw [hinput, ← List.append_assoc]
    exact hskip.trans (strchr_here (pre ++ fieldsText fs) after star)
  have hclose : ¬ ((pre ++ fieldsText fs).length : Int) - pre.length > maxNmeaPackLen := by
    rw [List.length_append]
    push_cast
    omega
  have hsections := sections_fields hcommas pre after sectionMaxCount.toNat
  rw [← hinput] at hsections
  refine ⟨_, ?_, hsections⟩
  unfold dataConversion
  dsimp only
  rw [hend, hskip, hfirst]
  dsimp only
  rw [if_neg hclose]

/-- The number at the front of a section is that of its field. -/
theorem atoi_section {abi : Abi} {s f : List Byte} {p : Nat} (hf : NumberText f)
    (h : SectionOf s f p) : atoi abi (s.drop p) = numberOf f := by
  obtain ⟨sep, rest, hsep, hdrop⟩ := h
  have hstops : Stops 10 sep := by
    rcases hsep with rfl | rfl
    · exact stops_comma
    · exact stops_star
  rw [hdrop, atoi, strtol_stop abi (by decide) hstops, strtol_digits abi hf.digits hf.value_lt]
  exact Int32.ofInt_eq_ofNat

/-! ## parse_gga and parse_rmc -/

/-- A section that is set can be read. -/
theorem deref_set {input : List Byte} {size : UInt8} (hsize : 1 ≤ size) (hfirst : ¬ StarFirst input)
    {n : Nat} (hn : 1 ≤ n) (hcount : n ≤ (dataConversion (some input) size).1.toNat) :
    ∀ k ≤ n, ∃ t, deref size (text input) (dataConversion (some input) size).2 k = some t := by
  intro k hk
  have hone : 1 ≤ (dataConversion (some input) size).1 := by
    rw [UInt8.le_iff_toNat_le]
    exact Nat.le_trans hn hcount
  obtain ⟨hset, hlt⟩ := (sectionsSet_iff input hsize).mpr hfirst hone
  have hk' := Nat.le_trans hk hcount
  obtain ⟨p, hp, -⟩ := hset k hk'
  have hin : k < size.toNat := Nat.lt_of_le_of_lt hk' (UInt8.lt_iff_toNat_lt.mp hlt)
  have hget : (dataConversion (some input) size).2[k]? = some p := hp
  refine ⟨(text input).drop p, ?_⟩
  rw [deref, ptrSection, if_pos hin, hget]
  rfl

section

variable {D : Type} [CArith D] {abi : Abi}

/-- parse_gga reads through a NULL pointer exactly if a '*' comes before the first ','. -/
theorem parseGga_defined (input : List Byte) (pdat : NmeaGga D) :
    (parseGga abi (some input) pdat).isSome ↔ ¬ StarFirst input := by
  unfold parseGga
  dsimp only
  by_cases hfirst : StarFirst input
  · have hrun := @conversion_starFirst input hfirst ggaSectionMax (by decide)
    have hread : ¬ parseGgaMessageMaxLen > (255 : UInt8) := by decide
    rw [hrun, if_neg hread]
    exact iff_of_false (by simp [deref, ptrSection, ggaSectionMax]) fun h => h hfirst
  · refine iff_of_true ?_ hfirst
    by_cases hcount : parseGgaMessageMaxLen > (dataConversion (some input) ggaSectionMax).1
    · rw [if_pos hcount]
      rfl
    · have hge : 8 ≤ (dataConversion (some input) ggaSectionMax).1.toNat :=
        UInt8.le_iff_toNat_le.mp (UInt8.not_lt.mp hcount)
      have hread := @deref_set input ggaSectionMax (by decide) hfirst 8 (by decide) hge
      obtain ⟨t0, h0⟩ := hread 0 (by decide)
      obtain ⟨t1, h1⟩ := hread 1 (by decide)
      obtain ⟨t2, h2⟩ := hread 2 (by decide)
      obtain ⟨t3, h3⟩ := hread 3 (by decide)
      obtain ⟨t4, h4⟩ := hread 4 (by decide)
      obtain ⟨t6, h6⟩ := hread 6 (by decide)
      obtain ⟨t7, h7⟩ := hread 7 (by decide)
      obtain ⟨t8, h8⟩ := hread 8 (by decide)
      rw [if_neg hcount, h0, h1, h2, h3, h4, h6, h7, h8]
      rfl

/-- And so does parse_rmc. -/
theorem parseRmc_defined (input : List Byte) (pdat : NmeaRmc D) :
    (parseRmc (some input) pdat).isSome ↔ ¬ StarFirst input := by
  unfold parseRmc
  dsimp only
  by_cases hfirst : StarFirst input
  · have hrun := @conversion_starFirst input hfirst rmcSectionMax (by decide)
    have hread : ¬ (255 : UInt8) < parseRmcMessageMaxLen := by decide
    rw [hrun, if_neg hread]
    exact iff_of_false (by simp [deref, ptrSection, rmcSectionMax]) fun h => h hfirst
  · refine iff_of_true ?_ hfirst
    by_cases hcount : (dataConversion (some input) rmcSectionMax).1 < parseRmcMessageMaxLen
    · rw [if_pos hcount]
      rfl
    · have hge : 9 ≤ (dataConversion (some input) rmcSectionMax).1.toNat :=
        UInt8.le_iff_toNat_le.mp (UInt8.not_lt.mp hcount)
      have hread := @deref_set input rmcSectionMax (by decide) hfirst 9 (by decide) hge
      obtain ⟨t0, h0⟩ := hread 0 (by decide)
      obtain ⟨t1, h1⟩ := hread 1 (by decide)
      obtain ⟨t2, h2⟩ := hread 2 (by decide)
      obtain ⟨t3, h3⟩ := hread 3 (by decide)
      obtain ⟨t4, h4⟩ := hread 4 (by decide)
      obtain ⟨t5, h5⟩ := hread 5 (by decide)
      obtain ⟨t6, h6⟩ := hread 6 (by decide)
      obtain ⟨t7, h7⟩ := hread 7 (by decide)
      obtain ⟨t8, h8⟩ := hread 8 (by decide)
      rw [if_neg hcount, h0, h1, h2, h3, h4, h5, h6, h7, h8]
      rfl

/-- **gps_parse uses only sections it has found exactly if no '*' comes before the first ','**:
data_conversion has set what it returns, and neither parse_gga nor parse_rmc reads through a
pointer it has not set. -/
theorem sections_used (abi : Abi) (input : List Byte) {sectionMaxCount : UInt8}
    (hmax : 1 ≤ sectionMaxCount) (gga : NmeaGga D) (rmc : NmeaRmc D) :
    (SectionsSet input sectionMaxCount ↔ ¬ StarFirst input) ∧
      ((parseGga abi (some input) gga).isSome ↔ ¬ StarFirst input) ∧
      ((parseRmc (some input) rmc).isSome ↔ ¬ StarFirst input) :=
  ⟨sectionsSet_iff input hmax, parseGga_defined input gga, parseRmc_defined input rmc⟩

/-- A zeroed NMEA_GGA and a zeroed NMEA_RMC. -/
def NmeaGga.zeroed : NmeaGga D :=
  ⟨CDouble.zero, CDouble.zero, 0, CDouble.zero, 0, 0, 0, CDouble.zero, CDouble.zero⟩

def NmeaRmc.zeroed : NmeaRmc D :=
  ⟨CDouble.zero, 0, CDouble.zero, 0, CDouble.zero, 0, CDouble.zero, CDouble.zero, CDouble.zero⟩

end

/-- The repository's own RMC message. -/
theorem sections_used_test :
    let input := cstr ",014419.00,A,2930.34343,N,10634.36893,E,0.000,354.29,020221,2.60,W,D*37\r\n"
    let abi : Abi := ⟨false, 32, le_rfl⟩
    (SectionsSet input rmcSectionMax ↔ ¬ StarFirst input) ∧
      ((parseGga abi (some input) (.zeroed : NmeaGga Rat)).isSome ↔ ¬ StarFirst input) ∧
      ((parseRmc (some input) (.zeroed : NmeaRmc Rat)).isSome ↔ ¬ StarFirst input) := by
  intro input abi
  exact sections_used abi input (by decide) .zeroed .zeroed

/-- A '*' and then a ',': data_conversion returns 255 and sets nothing, parse_gga reads
through a NULL pointer. -/
theorem sections_unset :
    dataConversion (some (cstr "*,")) ggaSectionMax = (255, []) ∧
      ¬ SectionsSet (cstr "*,") ggaSectionMax ∧
      parseGga ⟨false, 32, le_rfl⟩ (some (cstr "*,")) (.zeroed : NmeaGga Rat) = none := by
  have hrun : dataConversion (some (cstr "*,")) ggaSectionMax = (255, []) := by decide
  refine ⟨hrun, ?_, ?_⟩
  · intro h
    unfold SectionsSet at h
    rw [hrun] at h
    obtain ⟨p, hp, -⟩ := (h (by decide)).1 0 (Nat.zero_le _)
    cases hp
  · unfold parseGga
    dsimp only
    rw [hrun]
    rfl

end RttNmea
