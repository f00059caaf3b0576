import FlatPanel.Mirror
import FlatPanel.Tools

/-! What the command-line tools do to the panel, and what they say about it. Both do the same
once they know the level; they differ in how they get it from their arguments. -/
namespace FlatPanel

open Program

variable {W : Type}

/-- Calls on one dimmer, none of whose results is looked at. -/
def SetCall.runAll (env : Env W) (d : USBDimmer) : List SetCall → Program W (List ToolAct × USBDimmer)
  | [] => return ([], d)
  | c :: rest => do
    let (ret, d') ← c.run env d
    let (acts, last) ← runAll env d' rest
    return (.set d c (decide (ret = usbdSuccess)) :: acts, last)

/-- The calls that bring the light to a level. -/
def lightTo (val : Nat) : List SetCall :=
  if val = 0 then [.lightOn false] else [.setBrightness val, .lightOn true]

/-- Connect, bring the light to a level, disconnect. -/
def drive (env : Env W) (d : USBDimmer) (err : String) (val : Nat) : Program W ToolRun := do
  let (ret, d) ← d.connect env
  if ret ≠ usbdSuccess then
    let _ ← d.disconnect env
    return { status := 1, out := "", err := err, acts := [.connect false] }
  else
    let (acts, last) ← SetCall.runAll env d (lightTo val)
    let _ ← last.disconnect env
    return { status := 0, out := "", err := "", acts := .connect true :: acts }

theorem destroy_bind {α : Type} (env : Env W) (p : AlnitakEmu) (m : Program W α) :
    (p.destroy env >>= fun _ => m) = p.dimmer.disconnect env >>= fun _ => m := by
  cases opens : p.dimmer.mHandle with
  | none => simp [AlnitakEmu.destroy, AlnitakEmu.disconnect, USBDimmer.disconnect, opens]
  | some handle => simp [AlnitakEmu.destroy, AlnitakEmu.disconnect, USBDimmer.disconnect, opens]

theorem setLightOn_bind {α : Type} (env : Env W) (p : AlnitakEmu) (on : Bool)
    (k : Bool × AlnitakEmu → Program W α) : (p.setLightOn env on >>= k) =
      p.dimmer.lightOn env on >>= fun r => k (decide (r.1 = usbdSuccess),
        { p with dimmer := r.2, light := if r.1 = usbdSuccess then on else p.light }) := by
  rw [AlnitakEmu.setLightOn, bind_assoc]
  congr 1
  funext ⟨ret, d⟩
  by_cases ok : ret = usbdSuccess
  · simp only [ok, if_true, pure_bind, decide_true]
  · simp only [ok, if_false, pure_bind, decide_false]

theorem setBrightness_bind {α : Type} (env : Env W) (p : AlnitakEmu) (val : UInt8)
    (k : Bool × AlnitakEmu → Program W α) : (p.setBrightness env val >>= k) =
      p.dimmer.setBrightness env (sMap.usbdVal val.toNat) >>= fun r =>
        k (decide (r.1 = usbdSuccess),
          { p with dimmer := r.2, blvl := if r.1 = usbdSuccess then val else p.blvl }) := by
  rw [AlnitakEmu.setBrightness, bind_assoc]
  congr 1
  funext ⟨ret, d⟩
  by_cases ok : ret = usbdSuccess
  · simp only [ok, if_true, pure_bind, decide_true]
  · simp only [ok, if_false, pure_bind, decide_false]

/-- The argument's first letter, a capital or not. -/
def beginsWith (arg : List UInt8) (capital small : Char) : Prop :=
  arg.head? = some (ascii capital) ∨ arg.head? = some (ascii small)

instance (arg : List UInt8) (capital small : Char) : Decidable (beginsWith arg capital small) :=
  inferInstanceAs (Decidable (_ ∨ _))

/-- `L Bn`: the number that follows the B is in the range. What comes after is not looked at. -/
structure Aacmd.Light (argv : List (List UInt8)) (n : Nat) : Prop where
  letters : ∃ tool port cmd level rest, argv = tool :: port :: cmd :: level :: rest ∧
    beginsWith cmd 'L' 'l' ∧ beginsWith level 'B' 'b' ∧ CString.scanUnsigned level.tail = some n
  least : 1 ≤ n
  most : n ≤ 255

def Aacmd.Dark (argv : List (List UInt8)) : Prop :=
  ∃ tool port cmd rest, argv = tool :: port :: cmd :: rest ∧ beginsWith cmd 'D' 'd'

theorem toupper_eq {c capital : UInt8} (least : ascii 'A' ≤ capital) (most : capital ≤ ascii 'Z') :
    toupper c = capital ↔ c = capital ∨ c = capital + 32 := by
  have a : (ascii 'a').toNat = 97 := rfl
  have z : (ascii 'z').toNat = 122 := rfl
  have A : (ascii 'A').toNat = 65 := rfl
  have Z : (ascii 'Z').toNat = 90 := rfl
  have c_lt := c.toNat_lt
  rw [UInt8.le_iff_toNat_le] at least most
  simp only [toupper, UInt8.le_iff_toNat_le, a, z]
  split
  · rw [← UInt8.toNat_inj, ← UInt8.toNat_inj, ← UInt8.toNat_inj]
    simp only [UInt8.toNat_sub, UInt8.toNat_add, Nat.reducePow, UInt8.reduceToNat, Nat.reduceSub]
    omega
  · rw [← UInt8.toNat_inj, ← UInt8.toNat_inj]
    simp only [UInt8.toNat_add, UInt8.reduceToNat, Nat.reducePow, iff_self_or]
    omega

theorem firstChar_eq {arg : List UInt8} {c : UInt8} (letter : c ≠ 0) :
    firstChar arg = c ↔ arg.head? = some c := by
  cases arg with
  | nil => simp [firstChar, letter.symm]
  | cons b arg => simp [firstChar]

theorem toupper_firstChar {arg : List UInt8} {capital small : Char}
    (range : ascii 'A' ≤ ascii capital ∧ ascii capital ≤ ascii 'Z')
    (shift : ascii capital + 32 = ascii small) (letters : ascii capital ≠ 0 ∧ ascii small ≠ 0) :
    toupper (firstChar arg) = ascii capital ↔ beginsWith arg capital small := by
  rw [toupper_eq range.1 range.2, shift, firstChar_eq letters.1, firstChar_eq letters.2]
  rfl

theorem Aacmd.light_iff {tool port cmd level : List UInt8} {rest : List (List UInt8)} {n : Nat} :
    Aacmd.Light (tool :: port :: cmd :: level :: rest) n ↔ beginsWith cmd 'L' 'l' ∧
      beginsWith level 'B' 'b' ∧ CString.scanUnsigned level.tail = some n ∧ 1 ≤ n ∧ n ≤ 255 := by
  constructor
  · rintro ⟨⟨_, _, _, _, _, same, cmd, level, number⟩, least, most⟩
    obtain ⟨rfl, rfl, rfl, rfl, rfl⟩ := by simpa using same
    exact ⟨cmd, level, number, least, most⟩
  · rintro ⟨cmd, level, number, least, most⟩
    exact ⟨⟨_, _, _, _, _, rfl, cmd, level, number⟩, least, most⟩

theorem Aacmd.dark_iff {tool port cmd : List UInt8} {rest : List (List UInt8)} :
    Aacmd.Dark (tool :: port :: cmd :: rest) ↔ beginsWith cmd 'D' 'd' := by
  constructor
  · rintro ⟨_, _, _, _, same, cmd⟩
    obtain ⟨rfl, rfl, rfl, rfl⟩ := by simpa using same
    exact cmd
  · exact fun cmd => ⟨_, _, _, _, rfl, cmd⟩

theorem Aacmd.command_light {tool port cmd level : List UInt8} {rest : List (List UInt8)} {n : Nat}
    (light : toupper (firstChar cmd) = ascii 'L') :
    Aacmd.command (tool :: port :: cmd :: level :: rest) = .inten n ↔
      toupper (firstChar level) = ascii 'B' ∧ CString.scanUnsigned level.tail = some n ∧
        1 ≤ n ∧ n ≤ 255 := by
  have long : ¬ (tool :: port :: cmd :: level :: rest).length < 4 := by simp
  have enough : ¬ (tool :: port :: cmd :: level :: rest).length < 3 := by simp
  simp only [Aacmd.command, if_neg enough, List.getD_cons_succ, List.getD_cons_zero,
    if_pos light, long, false_or]
  by_cases letter : toupper (firstChar level) = ascii 'B'
  · simp only [letter, ne_eq, not_true_eq_false, if_false, true_and]
    cases CString.scanUnsigned level.tail with
    | none => simp
    | some val =>
      by_cases bad : val < 1 ∨ val > 255
      · simp only [if_pos bad, Option.some.injEq, reduceCtorEq, false_iff]
        omega
      · simp only [if_neg bad, Command.inten.injEq, Option.some.injEq]
        omega
  · simp [letter]

theorem Aacmd.command_other {tool port cmd : List UInt8} {rest : List (List UInt8)} {n : Nat}
    (other : toupper (firstChar cmd) ≠ ascii 'L') :
    Aacmd.command (tool :: port :: cmd :: rest) = .inten n ↔
      n = 0 ∧ toupper (firstChar cmd) = ascii 'D' := by
  have enough : ¬ (tool :: port :: cmd :: rest).length < 3 := by simp
  simp only [Aacmd.command, if_neg enough, List.getD_cons_succ, List.getD_cons_zero, if_neg other]
  by_cases dark : toupper (firstChar cmd) = ascii 'D'
  · simp [dark, eq_comm]
  · rw [if_neg dark]
    simp only [dark, and_false, iff_false]
    by_cases version : toupper (firstChar cmd) = ascii 'V'
    · simp [version]
    · rw [if_neg version]
      split
      · simp
      · simp

/-- What the letters say is what is parsed. -/
theorem Aacmd.command_inten_iff {argv : List (List UInt8)} {n : Nat} :
    Aacmd.command argv = .inten n ↔ Aacmd.Light argv n ∨ n = 0 ∧ Aacmd.Dark argv := by
  have letter_L (arg : List UInt8) :
      toupper (firstChar arg) = ascii 'L' ↔ beginsWith arg 'L' 'l' :=
    toupper_firstChar (by decide) (by decide) (by decide)
  have letter_D (arg : List UInt8) :
      toupper (firstChar arg) = ascii 'D' ↔ beginsWith arg 'D' 'd' :=
    toupper_firstChar (by decide) (by decide) (by decide)
  have letter_B (arg : List UInt8) :
      toupper (firstChar arg) = ascii 'B' ↔ beginsWith arg 'B' 'b' :=
    toupper_firstChar (by decide) (by decide) (by decide)
  have differ : ¬ ascii 'L' = ascii 'D' := by decide
  match argv with
  | [] | [_] | [_, _] =>
    refine iff_of_false (by simp [Aacmd.command]) ?_
    rintro (⟨⟨_, _, _, _, _, same, _⟩, _, _⟩ | ⟨_, _, _, _, _, same, _⟩)
    · simp at same
    · simp at same
  | [tool, port, cmd] =>
    have short : ¬ Aacmd.Light [tool, port, cmd] n := by
      rintro ⟨⟨_, _, _, _, _, same, _⟩, _, _⟩
      simp at same
    rw [Aacmd.dark_iff, ← letter_D]
    by_cases light : toupper (firstChar cmd) = ascii 'L'
    · simp [Aacmd.command, light, short, differ]
    · simp [Aacmd.command_other light, short]
  | tool :: port :: cmd :: level :: rest =>
    rw [Aacmd.light_iff, Aacmd.dark_iff, ← letter_L, ← letter_B, ← letter_D]
    by_cases light : toupper (firstChar cmd) = ascii 'L'
    · simp [Aacmd.command_light light, light, differ]
    · simp [Aacmd.command_other light, light]

theorem Aacmd.command_bounds {argv : List (List UInt8)} {inten : Nat}
    (light : Aacmd.command argv = .inten inten) : inten ≤ 255 := by
  rcases Aacmd.command_inten_iff.mp light with light | ⟨rfl, _⟩
  · exact light.most
  · omega

theorem usbdVal_pos {inten : Nat} (lit : inten ≠ 0) : 0 < sMap.usbdVal inten := by
  rw [IntenMap.usbdVal_eq]
  exact Nat.pos_of_ne_zero fun zero => by have := (IntenMap.level_eq_zero _).mp zero; omega

theorem usbdVal_le {inten : Nat} (bound : inten ≤ 255) : sMap.usbdVal inten ≤ 1023 := by
  rw [IntenMap.usbdVal_eq, Nat.min_eq_left bound]
  exact IntenMap.level_byte inten bound

theorem Aacmd.main_drives (env : Env W) (brightness : Int) (on : Bool)
    {argv : List (List UInt8)} {inten : Nat} (light : Aacmd.command argv = .inten inten) :
    Aacmd.main env brightness on argv =
      drive env (.automatic brightness on) "could not connect to usb dimmer!\n"
        (sMap.usbdVal inten) := by
  have bound := Aacmd.command_bounds light
  have byte : inten.toUInt8.toNat = inten := by simp; omega
  simp only [Aacmd.main, light, drive, AlnitakEmu.connect, bind_assoc]
  congr 1
  funext ⟨ret, d⟩
  by_cases ok : ret = usbdSuccess
  · by_cases zero : inten = 0
    · have dark : sMap.usbdVal 0 = 0 := by simp [IntenMap.level]
      simp only [ok, if_true, pure_bind, not_true_eq_false, if_false, ne_eq, zero, dark,
        setLightOn_bind, destroy_bind, lightTo, SetCall.runAll, SetCall.run, bind_assoc]
      rfl
    · have lit : sMap.usbdVal inten ≠ 0 := Nat.ne_of_gt (usbdVal_pos zero)
      simp only [ok, if_true, pure_bind, not_true_eq_false, if_false, ne_eq, zero, byte, lit,
        setBrightness_bind, setLightOn_bind, destroy_bind, lightTo, SetCall.runAll, SetCall.run,
        bind_assoc]
      rfl
  · simp only [ok, if_false, pure_bind, destroy_bind, not_false_eq_true, if_true, ne_eq,
      Bool.false_eq_true]

theorem Usbdctrl.inten_small {tool arg : List UInt8} {t : Nat}
    (number : CString.scanUnsigned arg = some t) (small : t < 2 ^ 31) :
    Usbdctrl.inten [tool, arg] = t := by
  simp only [Usbdctrl.inten, List.length_cons, List.length_nil, if_true, List.getD_cons_succ,
    List.getD_cons_zero, number]
  simp only [Int.bmod]
  omega

theorem Usbdctrl.inten_large (tool : List UInt8) {arg : List UInt8} {t : Nat}
    (number : CString.scanUnsigned arg = some t) (large : 2 ^ 31 ≤ t) :
    Usbdctrl.inten [tool, arg] < 0 := by
  have word := CString.scanUnsigned_lt number
  simp only [Usbdctrl.inten, List.length_cons, List.length_nil, if_true, List.getD_cons_succ,
    List.getD_cons_zero, number]
  simp only [Int.bmod]
  omega

theorem Usbdctrl.main_drives (env : Env W) (brightness : Int) (on : Bool)
    {argv : List (List UInt8)} {t : Nat} (number : Usbdctrl.inten argv = t) :
    Usbdctrl.main env brightness on argv = drive env (.automatic brightness on) "" t := by
  simp only [Usbdctrl.main, number, drive]
  congr 1
  funext ⟨ret, d⟩
  by_cases ok : ret = usbdSuccess
  · by_cases zero : t = 0
    · simp only [ok, if_true, pure_bind, not_true_eq_false, if_false, ne_eq, zero, lightTo,
        SetCall.runAll, SetCall.run, bind_assoc, Int.natCast_zero]
      rfl
    · have lit : (t : Int) ≠ 0 := by omega
      have positive : (t : Int) > 0 := by omega
      simp only [ok, if_true, pure_bind, not_true_eq_false, if_false, ne_eq, zero, lit, positive,
        lightTo, SetCall.runAll, SetCall.run, bind_assoc, Int.toNat_natCast]
      rfl
  · simp only [ok, not_false_eq_true, if_true, ne_eq, decide_false]

def requested (val : Nat) : Nat := min val 1023

theorem clamp_requested (val : Nat) : USBDimmer.clamp val = requested val := by
  unfold USBDimmer.clamp requested
  omega

theorem requested_pos {val : Nat} (lit : val ≠ 0) : 0 < requested val := by
  unfold requested
  omega

/-- On a faultless device the calls end at the requested intensity, from any state of the
dimmer that mirrors it. -/
theorem lightTo_reaches {b : Behaviour} (all : b.Faultless) {read : Int} {d : USBDimmer}
    {dev : Device} (h : Mirrors read d dev) (val : Nat) :
    (SetCall.runAll (Device.env b) d (lightTo val)).Returns dev (fun _ dev' =>
      dev'.inten = requested val) := by
  by_cases zero : val = 0
  · simp only [lightTo, if_pos zero, SetCall.runAll, pure_bind]
    apply returns_bind
    refine (set_mirrors all h (.lightOn false)).mono ?_
    rintro ⟨ret, d'⟩ dev' ⟨same, shows⟩
    obtain ⟨rfl, rfl⟩ := Prod.mk.inj same
    refine returns_pure ?_
    have dark : (dev'.inten : Int) = 0 := shows.shows
    rw [zero]
    exact Int.ofNat.inj dark
  · simp only [lightTo, if_neg zero, SetCall.runAll, pure_bind, bind_assoc]
    apply returns_bind
    refine (set_mirrors all h (.setBrightness val)).mono ?_
    rintro ⟨ret, d₁⟩ dev₁ ⟨same, h₁⟩
    obtain ⟨rfl, rfl⟩ := Prod.mk.inj same
    apply returns_bind
    refine (set_mirrors all h₁ (.lightOn true)).mono ?_
    rintro ⟨ret, d₂⟩ dev₂ ⟨same, h₂⟩
    obtain ⟨rfl, rfl⟩ := Prod.mk.inj same
    refine returns_pure ?_
    have positive := requested_pos zero
    have lit : (dev₂.inten : Int) = requested val := by
      rw [h₂.shows, USBDimmer.shown, USBDimmer.after, USBDimmer.after, clamp_requested]
      simp [positive]
    exact Int.ofNat.inj lit

theorem drive_reaches {b : Behaviour} (all : b.Faultless) {dev : Device}
    (word : dev.inten < 65536) (d : USBDimmer) (err : String) (val : Nat) :
    (drive (Device.env b) d err val).Returns dev (fun r dev' =>
      r.status = 0 ∧ dev'.inten = requested val) := by
  apply returns_bind
  refine (connect_mirrors all dev word d).mono ?_
  rintro ⟨ret, d₁⟩ dev₁ ⟨same, h⟩
  obtain ⟨rfl, rfl⟩ := Prod.mk.inj same
  simp only [ne_eq, not_true_eq_false, if_false]
  apply returns_bind
  refine (lightTo_reaches all h val).mono ?_
  rintro ⟨acts, last⟩ dev₂ there
  apply returns_bind
  refine (Device.disconnect_returns b last dev₂).mono ?_
  exact fun _ dev₃ kept => returns_pure ⟨rfl, kept.trans there⟩

structure Invocation where
  argv : List (List UInt8)
  brightness : Int
  on : Bool

def Aacmd.next (env : Env W) (_ : Option ToolRun) (i : Invocation) : Program W (Option ToolRun) :=
  some <$> Aacmd.main env i.brightness i.on i.argv

/-- `L Bn` leaves the device at the level of `n`, which is not dark, and `D` leaves it dark; any
other command leaves it alone. -/
structure Aacmd.Reaches (argv : List (List UInt8)) (dev dev' : Device) : Prop where
  light : ∀ n, Aacmd.Light argv n → dev'.inten = sMap.usbdVal n ∧ 0 < dev'.inten
  dark : Aacmd.Dark argv → dev'.inten = 0
  other : (∀ n, ¬ Aacmd.Light argv n) → ¬ Aacmd.Dark argv → dev' = dev

theorem Aacmd.inten_reaches {argv : List (List UInt8)} {n : Nat} {dev dev' : Device}
    (light : Aacmd.command argv = .inten n) (there : dev'.inten = sMap.usbdVal n) :
    Aacmd.Reaches argv dev dev' := by
  have only {m : Nat} (means : Aacmd.Light argv m ∨ m = 0 ∧ Aacmd.Dark argv) : n = m := by
    have parsed := Aacmd.command_inten_iff.mpr means
    rw [light] at parsed
    exact Aacmd.Command.inten.inj parsed
  refine ⟨fun m asks => ?_, fun asks => ?_, fun unlit undark => ?_⟩
  · obtain rfl := only (.inl asks)
    have lit := usbdVal_pos (Nat.ne_of_gt asks.least)
    exact ⟨there, by omega⟩
  · obtain rfl := only (.inr ⟨rfl, asks⟩)
    rw [there]
    simp [IntenMap.level]
  · rcases Aacmd.command_inten_iff.mp light with asks | ⟨_, asks⟩
    · exact absurd asks (unlit n)
    · exact absurd asks undark

theorem Aacmd.other_reaches {argv : List (List UInt8)} (dev : Device)
    (other : ∀ n, Aacmd.command argv ≠ .inten n) : Aacmd.Reaches argv dev dev :=
  ⟨fun n asks => absurd (Aacmd.command_inten_iff.mpr (.inl asks)) (other n),
    fun asks => absurd (Aacmd.command_inten_iff.mpr (.inr ⟨rfl, asks⟩)) (other 0),
    fun _ _ => rfl⟩

theorem Aacmd.main_reaches {b : Behaviour} (all : b.Faultless) {dev : Device}
    (word : dev.inten < 65536) (i : Invocation) :
    (Aacmd.main (Device.env b) i.brightness i.on i.argv).Returns dev (fun _ dev' =>
      Aacmd.Reaches i.argv dev dev' ∧ dev'.inten < 65536) := by
  cases asks : Aacmd.command i.argv with
  | usage | version | nothing =>
    simp only [Aacmd.main, asks]
    exact returns_pure ⟨Aacmd.other_reaches dev (by simp [asks]), word⟩
  | inten n =>
    have known := usbdVal_le (Aacmd.command_bounds asks)
    rw [Aacmd.main_drives _ _ _ asks]
    refine (drive_reaches all word _ _ _).mono ?_
    rintro r dev' ⟨_, there⟩
    rw [requested, Nat.min_eq_left known] at there
    exact ⟨Aacmd.inten_reaches asks there, by omega⟩

/-- Any number of runs, each from whatever intensity the one before it left. -/
theorem Aacmd.reaches_level (b : Behaviour) (all : b.Faultless) (dev : Device)
    (word : dev.inten < 65536) (runs : List Invocation) :
    (Runs.run (Aacmd.next (Device.env b)) none runs).Returns dev (fun _ _ => True) ∧
      Runs.EachStep (Aacmd.next (Device.env b))
        (fun _ dev i _ dev' => Aacmd.Reaches i.argv dev dev') none dev runs := by
  have steps (r : Option ToolRun) (dev : Device) (i : Invocation) (word : dev.inten < 65536) :
      (Aacmd.next (Device.env b) r i).Returns dev (fun _ dev' =>
        Aacmd.Reaches i.argv dev dev' ∧ dev'.inten < 65536) := by
    obtain ⟨ran, dev', hrun, out⟩ := Aacmd.main_reaches all word i
    exact ⟨some ran, dev', (run_map_eq _ _ _ _ _).mpr ⟨ran, hrun, rfl⟩, out⟩
  constructor
  · have runs' := Runs.returns_run (I := fun _ dev => dev.inten < 65536)
      (fun r dev i word => (steps r dev i word).mono fun _ _ out => out.2) runs (s := none) word
    exact runs'.mono fun _ _ _ => trivial
  · apply Runs.eachStep_of_keeps (I := fun _ dev => dev.inten < 65536)
    · exact fun r dev i word => ((steps r dev i word).mono fun _ _ out => out.2).ensures
    · exact fun r dev i r' dev' word hs => ((steps r dev i word).ensures r' dev' hs).1
    · exact word

def argument (s : String) : List UInt8 := s.toList.map ascii

/-- A panel found far above the range, turned off, and lit at the least and the largest level. -/
theorem Aacmd.reaches_level_5000 :
    let runs := [(⟨[argument "aacmd", argument "5", argument "D", argument "S"], 7, true⟩, 0),
      (⟨[argument "aacmd", argument "5", argument "L", argument "B1", argument "S"], -3, false⟩, 1),
      (⟨[argument "aacmd", argument "5", argument "l", argument "b255"], 0, true⟩, 1023)]
    (Runs.run (Aacmd.next (Device.env .steady)) none (runs.map Prod.fst)).Returns
        (Device.idle 5000) (fun _ _ => True) ∧
      Runs.EachStep (Aacmd.next (Device.env .steady)) (fun _ _ i _ dev' => (i, dev'.inten) ∈ runs)
        none (Device.idle 5000) (runs.map Prod.fst) := by
  intro runs
  obtain ⟨ends, each⟩ := Aacmd.reaches_level .steady Behaviour.steady_faultless (Device.idle 5000)
    (by decide) (runs.map Prod.fst)
  have least : sMap.usbdVal 1 = 1 := IntenMap.usbdVal_eq 1
  have most : sMap.usbdVal 255 = 1023 := IntenMap.usbdVal_eq 255
  refine ⟨ends, fun r₁ dev₁ h₁ => ?_⟩
  obtain ⟨first, each⟩ := each r₁ dev₁ h₁
  have off := first.dark ⟨_, _, _, _, rfl, by decide⟩
  refine ⟨by simp [runs, off], fun r₂ dev₂ h₂ => ?_⟩
  obtain ⟨second, each⟩ := each r₂ dev₂ h₂
  have low := second.light 1
    ⟨⟨_, _, _, _, _, rfl, by decide, by decide, by decide⟩, by decide, by decide⟩
  refine ⟨by simp [runs, low, least], fun r₃ dev₃ h₃ => ?_⟩
  obtain ⟨third, _⟩ := each r₃ dev₃ h₃
  have high := third.light 255
    ⟨⟨_, _, _, _, _, rfl, by decide, by decide, by decide⟩, by decide, by decide⟩
  exact ⟨by simp [runs, high, most], trivial⟩

example : Aacmd.command [argument "aacmd", argument "5", argument "l", argument "b255"] =
    .inten 255 := by decide

theorem Usbdctrl.main_asks {b : Behaviour} (all : b.Faultless) {dev : Device}
    (word : dev.inten < 65536) (brightness : Int) (on : Bool) {argv : List (List UInt8)}
    (negative : Usbdctrl.inten argv < 0) :
    (Usbdctrl.main (Device.env b) brightness on argv).Returns dev (fun _ dev' =>
      dev'.inten = dev.inten) := by
  have zero : ¬ Usbdctrl.inten argv = 0 := by omega
  have positive : ¬ Usbdctrl.inten argv > 0 := by omega
  apply returns_bind
  refine (connect_mirrors all dev word _).mono ?_
  rintro ⟨ret, d⟩ dev₁ ⟨same, h⟩
  obtain ⟨rfl, rfl⟩ := Prod.mk.inj same
  simp only [ne_eq, not_true_eq_false, if_false, if_neg zero, if_neg positive]
  apply returns_bind
  refine (Device.disconnect_returns b _ dev₁).mono ?_
  intro d' dev' kept
  have shows := h.shows
  rw [USBDimmer.opened_shown _ (Int.natCast_nonneg _)] at shows
  have found : dev'.inten = dev.inten := kept.trans (Int.ofNat.inj shows)
  apply returns_ite
  · exact fun _ => returns_pure found
  · intro _
    apply returns_ite
    · exact fun _ => returns_pure found
    · exact fun _ => returns_pure found

theorem Usbdctrl.sets_intensity_iff (b : Behaviour) (all : b.Faultless) (dev : Device)
    (word : dev.inten < 65536) (brightness : Int) (on : Bool) (tool arg : List UInt8) (t : Nat)
    (number : CString.scanUnsigned arg = some t) :
    (Usbdctrl.main (Device.env b) brightness on [tool, arg]).Returns dev
        (fun _ dev' => dev'.inten = min t 1023) ↔
      t < 2 ^ 31 ∨ dev.inten = 1023 := by
  by_cases small : t < 2 ^ 31
  · refine iff_of_true ?_ (.inl small)
    rw [Usbdctrl.main_drives _ _ _ (Usbdctrl.inten_small number small)]
    exact (drive_reaches all word _ _ _).mono fun _ _ out => out.2
  · have large : 2 ^ 31 ≤ t := Nat.not_lt.mp small
    have full : min t 1023 = 1023 := by omega
    have asks := Usbdctrl.main_asks all word brightness on
      (Usbdctrl.inten_large tool number large)
    constructor
    · rintro ⟨r, dev', hrun, there⟩
      have kept := asks.ensures r dev' hrun
      exact .inr (kept.symm.trans (there.trans full))
    · rintro (fits | shows)
      · exact absurd fits small
      · exact asks.mono fun _ _ kept => kept.trans (shows.trans full.symm)

theorem Usbdctrl.not_always_sets_intensity :
    CString.scanUnsigned (argument "2147483648") = some 2147483648 ∧
      ¬ (Usbdctrl.main (Device.env .steady) 0 false
          [argument "usbdctrl", argument "2147483648"]).Ensures (Device.idle 0)
        (fun _ dev' => dev'.inten = min 2147483648 1023) := by
  have number : CString.scanUnsigned (argument "2147483648") = some 2147483648 := by decide
  refine ⟨number, fun sets => ?_⟩
  have small : (Device.idle 0).inten < 65536 := by decide
  obtain ⟨r, dev', hrun, kept⟩ := Usbdctrl.main_asks Behaviour.steady_faultless small 0 false
    (Usbdctrl.inten_large (argument "usbdctrl") number (by decide))
  exact absurd (kept.symm.trans (sets r dev' hrun)) (by decide)

theorem Usbdctrl.sets_intensity_iff_2147483647 :
    (Usbdctrl.main (Device.env .steady) 0 false
          [argument "usbdctrl", argument "2147483647"]).Returns (Device.idle 5000)
        (fun _ dev' => dev'.inten = min 2147483647 1023) ↔
      2147483647 < 2 ^ 31 ∨ (Device.idle 5000).inten = 1023 :=
  Usbdctrl.sets_intensity_iff .steady Behaviour.steady_faultless (Device.idle 5000) (by decide)
    0 false _ _ 2147483647 (by decide)

def ToolAct.Failed : ToolAct → Prop
  | .connect ok => ok = false
  | .set _ _ ok => ok = false

def ToolAct.LevelFailed : ToolAct → Prop
  | .set _ (.setBrightness _) ok => ok = false
  | _ => False

def ToolAct.turnsOn : ToolAct → Option Int
  | .set d (.lightOn true) _ => d.target (.lightOn true)
  | _ => none

/-- A brightness call that failed is not followed by one that turns the light on at another
level. -/
def ToolAct.Keeps (level : Nat) (a later : ToolAct) : Prop :=
  a.LevelFailed → ∀ t : Int, later.turnsOn = some t → t = level

/-- The run says so when a call failed, and does not put the light at a level that was not
asked for because the one that was could not be set. -/
structure ToolRun.Reports (r : ToolRun) (level : Nat) : Prop where
  status : (∃ a ∈ r.acts, a.Failed) → r.status ≠ 0
  kept : r.acts.Pairwise (ToolAct.Keeps level)

theorem set_serves (b : Behaviour) {read : Int} {d : USBDimmer} (h : d.Cached read)
    (dev : Device) (c : SetCall) : (c.run (Device.env b) d).Returns dev (fun r dev' =>
      (r.1 = usbdSuccess ↔ d.target c = none ∨ b.Serves dev.calls) ∧
      r.2 = (if r.1 = usbdSuccess then d.after c else d) ∧ (d.target c = none → dev' = dev)) := by
  cases goal : d.target c with
  | none =>
    rw [USBDimmer.run_shortcut h (Device.env b) goal]
    exact returns_pure ⟨iff_of_true rfl (.inl rfl), (if_pos rfl).symm, fun _ => rfl⟩
  | some t =>
    obtain ⟨handle, opens⟩ := Option.isSome_iff_exists.mp h.connected
    rw [USBDimmer.run_target (Device.env b) opens goal]
    apply returns_bind
    refine (Device.setInten_returns b dev handle t).mono ?_
    rintro ret dev' ⟨_, ok⟩
    refine returns_pure ⟨?_, rfl, fun none => by contradiction⟩
    simpa using ok

theorem off_idle_iff {read : Int} {d : USBDimmer} (h : d.Cached read) :
    d.target (.lightOn false) = none ↔ d.shown = 0 := by
  cases lit : d.mOn with
  | false => simp [USBDimmer.target, USBDimmer.shown, lit]
  | true =>
    have positive := h.lit lit
    simp only [USBDimmer.target, USBDimmer.shown, lit]
    simp
    omega

theorem stored_idle_iff {read : Int} {d : USBDimmer} (h : d.Cached read) {val : Nat}
    (lights : val ≠ 0) (stored : d.target (.setBrightness val) = none) :
    (d.after (.setBrightness val)).target (.lightOn true) = none ↔ d.shown = requested val := by
  have positive := requested_pos lights
  have clamped := clamp_requested val
  have nonzero : ¬ USBDimmer.clamp val = 0 := by omega
  cases lit : d.mOn with
  | false =>
    simp only [USBDimmer.target, USBDimmer.after, USBDimmer.shown, lit, nonzero]
    simp
    omega
  | true =>
    have same : USBDimmer.clamp val = d.mBrightness := by
      simpa [USBDimmer.target, lit, h.asUnsigned_eq] using stored
    simp only [USBDimmer.target, USBDimmer.after, USBDimmer.shown, lit, nonzero]
    simp
    omega

theorem written_level {read : Int} {d : USBDimmer} (h : d.Cached read) {val : Nat} {t : Int}
    (lights : val ≠ 0) (writes : d.target (.setBrightness val) = some t) :
    d.shown ≠ requested val ∧ d.target (.lightOn true) = none ∧
      (d.after (.setBrightness val)).target (.lightOn true) = none := by
  have positive := requested_pos lights
  have clamped := clamp_requested val
  have nonzero : ¬ USBDimmer.clamp val = 0 := by omega
  cases lit : d.mOn with
  | false => simp [USBDimmer.target, lit] at writes
  | true =>
    have other : USBDimmer.clamp val ≠ d.mBrightness := by
      intro same
      simp [USBDimmer.target, lit, h.asUnsigned_eq, same] at writes
    refine ⟨?_, by simp [USBDimmer.target, lit], by simp [USBDimmer.target, USBDimmer.after, lit, nonzero]⟩
    simp only [USBDimmer.shown, lit, if_true]
    omega

/-- The calls write at most once, and exactly when the panel is not at the level yet. -/
theorem lightTo_fails {b : Behaviour} {read : Int} {d : USBDimmer} {dev : Device}
    (h : Mirrors read d dev) (val : Nat) :
    (SetCall.runAll (Device.env b) d (lightTo val)).Returns dev (fun r _ =>
      ((∃ a ∈ r.1, a.Failed) ↔ dev.inten ≠ requested val ∧ ¬ b.Serves dev.calls) ∧
      r.1.Pairwise (ToolAct.Keeps (requested val))) := by
  have there (level : Nat) : d.shown = level ↔ dev.inten = level := by
    rw [← h.shows]
    exact Int.ofNat_inj
  by_cases zero : val = 0
  · simp only [lightTo, if_pos zero, SetCall.runAll, pure_bind]
    apply returns_bind
    refine (set_serves b h.cached dev (.lightOn false)).mono ?_
    rintro ⟨ret, d₁⟩ dev₁ ⟨ok, _, _⟩
    refine returns_pure ⟨?_, List.pairwise_singleton _ _⟩
    have idle : d.target (.lightOn false) = none ↔ dev.inten = requested val := by
      rw [off_idle_iff h.cached, ← there, zero]
      rfl
    simp [ToolAct.Failed, ok, idle]
  · simp only [lightTo, if_neg zero, SetCall.runAll, pure_bind, bind_assoc]
    apply returns_bind
    refine (set_serves b h.cached dev (.setBrightness val)).mono ?_
    rintro ⟨ret, d₁⟩ dev₁ ⟨ok, cache, still⟩
    have cached₁ : d₁.Cached read := by
      rw [show d₁ = _ from cache]
      split
      · exact h.cached.after _
      · exact h.cached
    apply returns_bind
    refine (set_serves b cached₁ dev₁ (.lightOn true)).mono ?_
    rintro ⟨ret₂, d₂⟩ dev₂ ⟨ok₂, _, _⟩
    apply returns_pure
    cases goal : d.target (.setBrightness val) with
    | none =>
      have success : ret = usbdSuccess := ok.mpr (.inl goal)
      obtain rfl : d₁ = d.after (.setBrightness val) := by simpa [success] using cache
      obtain rfl := still goal
      have idle := (stored_idle_iff h.cached zero goal).trans (there _)
      constructor
      · simp [ToolAct.Failed, success, ok₂, idle]
      · simp [ToolAct.Keeps, ToolAct.LevelFailed, success]
    | some t =>
      obtain ⟨elsewhere, before, after⟩ := written_level h.cached zero goal
      have idle : d₁.target (.lightOn true) = none := by
        rw [show d₁ = _ from cache]
        split
        · exact after
        · exact before
      have second : ret₂ = usbdSuccess := ok₂.mpr (.inl idle)
      have first : ret = usbdSuccess ↔ b.Serves dev.calls := by simpa [goal] using ok
      constructor
      · simp [ToolAct.Failed, second, first, ← there, elsewhere]
      · simp [ToolAct.Keeps, ToolAct.turnsOn, idle]

/-- The calls of a run that reach the device all go through: the connect does, and the write
after it if one is needed. A run that cannot connect says so. -/
def Reportable (b : Behaviour) (dev : Device) (level : Nat) : Prop :=
  b.Connects dev.calls → dev.inten = level ∨ b.Serves (dev.calls + 3)

theorem drive_reports (b : Behaviour) {dev : Device} (word : dev.inten < 65536)
    (d : USBDimmer) (err : String) (val : Nat) :
    (drive (Device.env b) d err val).Returns dev (fun r _ =>
      r.Reports (requested val) ↔ Reportable b dev (requested val)) := by
  apply returns_bind
  refine (connect_returns b word d).mono ?_
  rintro ⟨ret, d₁⟩ dev₁ (⟨up, same, calls, mirrors⟩ | ⟨down, failed⟩)
  · obtain ⟨rfl, rfl⟩ := Prod.mk.inj same
    simp only [ne_eq, not_true_eq_false, if_false]
    have shows := mirrors.shows
    rw [USBDimmer.opened_shown _ (Int.natCast_nonneg _)] at shows
    have found : dev₁.inten = dev.inten := Int.ofNat.inj shows
    apply returns_bind
    refine (lightTo_fails mirrors val).mono ?_
    rintro ⟨acts, last⟩ dev₂ ⟨fails, keeps⟩
    rw [found, calls] at fails
    apply returns_bind
    refine (Device.disconnect_returns b last dev₂).mono fun _ dev₃ _ => returns_pure ?_
    constructor
    · intro reports _
      by_contra stuck
      obtain ⟨a, made, failed⟩ := fails.mpr (not_or.mp stuck)
      exact reports.status ⟨a, List.mem_cons_of_mem _ made, failed⟩ rfl
    · intro goes
      refine ⟨?_, List.pairwise_cons.mpr ⟨fun a _ => False.elim, keeps⟩⟩
      rintro ⟨a, made, failed⟩
      rcases List.mem_cons.mp made with rfl | later
      · cases failed
      · obtain ⟨elsewhere, fault⟩ := fails.mp ⟨a, later, failed⟩
        rcases goes up with at_level | serves
        · exact absurd at_level elsewhere
        · exact absurd serves fault
  · obtain rfl : ret = usbdCommError := failed
    have unsuccessful : usbdCommError ≠ usbdSuccess := Ne.symm success_ne_commError
    simp only [if_pos unsuccessful]
    apply returns_bind
    refine (Device.disconnect_returns b d₁ dev₁).mono fun _ dev₂ _ => returns_pure ?_
    refine iff_of_true ⟨fun _ => Int.one_ne_zero, List.pairwise_singleton _ _⟩ ?_
    exact fun up => absurd up down

theorem tools_report_iff (b : Behaviour) (dev : Device) (word : dev.inten < 65536)
    (brightness : Int) (on : Bool) :
    (∀ argv n, Aacmd.command argv = .inten n →
      ((Aacmd.main (Device.env b) brightness on argv).Returns dev
          (fun r _ => r.Reports (sMap.usbdVal n)) ↔ Reportable b dev (sMap.usbdVal n))) ∧
    ∀ tool arg t, CString.scanUnsigned arg = some t → t < 2 ^ 31 →
      ((Usbdctrl.main (Device.env b) brightness on [tool, arg]).Returns dev
          (fun r _ => r.Reports (min t 1023)) ↔ Reportable b dev (min t 1023)) := by
  constructor
  · intro argv n light
    have level : requested (sMap.usbdVal n) = sMap.usbdVal n :=
      Nat.min_eq_left (usbdVal_le (Aacmd.command_bounds light))
    rw [Aacmd.main_drives _ _ _ light]
    have reports := drive_reports b word (.automatic brightness on)
      "could not connect to usb dimmer!\n" (sMap.usbdVal n)
    rw [level] at reports
    exact reports.holds_iff
  · intro tool arg t number small
    rw [Usbdctrl.main_drives _ _ _ (Usbdctrl.inten_small number small)]
    exact (drive_reports b word (.automatic brightness on) "" t).holds_iff

/-- A device that does not take the report of the fourth call, the first after a connect. -/
def Behaviour.deaf : Behaviour :=
  { Behaviour.steady with fault := fun n => if n = 3 then .failed else .none }

theorem deaf_not_reportable : ¬ Reportable .deaf (Device.idle 500) 0 := by
  intro goes
  rcases goes ⟨by decide, by decide, by decide⟩ with dark | serves
  · exact absurd dark (by decide)
  · exact absurd serves.1.1 (by decide)

theorem tools_not_always_report :
    ¬ (Aacmd.main (Device.env .deaf) 0 false [argument "aacmd", argument "5", argument "D"]).Ensures
      (Device.idle 500) (fun r _ => r.Reports 0) := by
  intro reports
  rw [Aacmd.main_drives _ _ _ (show Aacmd.command _ = .inten 0 by decide)] at reports
  have dark : sMap.usbdVal 0 = 0 := by simp [IntenMap.level]
  rw [dark] at reports
  have small : (Device.idle 500).inten < 65536 := by decide
  obtain ⟨r, dev', hrun, decided⟩ := drive_reports .deaf small (.automatic 0 false)
    "could not connect to usb dimmer!\n" 0
  exact deaf_not_reportable (decided.mp (reports r dev' hrun))

theorem tools_report_iff_deaf :
    ((Aacmd.main (Device.env .deaf) 0 false
          [argument "aacmd", argument "5", argument "D"]).Returns (Device.idle 500)
        (fun r _ => r.Reports (sMap.usbdVal 0)) ↔
      Reportable .deaf (Device.idle 500) (sMap.usbdVal 0)) ∧
    ((Usbdctrl.main (Device.env .deaf) 0 false
          [argument "usbdctrl", argument "300"]).Returns (Device.idle 500)
        (fun r _ => r.Reports (min 300 1023)) ↔
      Reportable .deaf (Device.idle 500) (min 300 1023)) := by
  obtain ⟨aacmd, usbdctrl⟩ := tools_report_iff .deaf (Device.idle 500) (by decide) 0 false
  exact ⟨aacmd _ 0 (by decide), usbdctrl _ _ 300 (by decide) (by decide)⟩

end FlatPanel
