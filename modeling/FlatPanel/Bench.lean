import FlatPanel.Commands
import FlatPanel.Lamp

/-! A dimmer and the three programs that drive it. Whole runs of the tools and of the emulator
take turns with one dimmer, and each finds what the one before it left: nothing but the intensity
passes from one to the next. -/
namespace FlatPanel

open Program Framing

/-- A whole run of a program: what the stack of a tool held and its arguments, or what the
emulator's buffer held and what its reads bring. -/
inductive Job where
  | aacmd (brightness : Int) (on : Bool) (argv : List (List UInt8))
  | usbdctrl (brightness : Int) (on : Bool) (argv : List (List UInt8))
  | emu (buf : Memory) (rs : List SerialRead)

/-- What is seen of a run from outside. -/
inductive Seen where
  | tool (status : Int) (out err : String)
  | emu (exited : Option Int) (answers : List (List UInt8))

def ToolRun.seen (r : ToolRun) : Seen := .tool r.status r.out r.err

def Job.run {W : Type} (env : Env W) : Job → Program W Seen
  | .aacmd brightness on argv => ToolRun.seen <$> Aacmd.main env brightness on argv
  | .usbdctrl brightness on argv => ToolRun.seen <$> Usbdctrl.main env brightness on argv
  | .emu buf rs => (fun s => .emu s.exited s.responses) <$> Emu.main env buf rs

/-- The emulator is sent lines that fit, and a quit among them. -/
def Job.Ends : Job → List Line → Prop
  | .emu _ rs, ls => Delivers rs ls ∧ (∃ l ∈ ls, Emu.isQuit l.bytes = true) ∧
      ∀ l ∈ ls, 1 ≤ l.bytes.length ∧ l.bytes.length ≤ longest
  | .aacmd _ _ _, _ | .usbdctrl _ _ _, _ => True

def Aacmd.does (argv : List (List UInt8)) (inten : Nat) : Seen × Nat :=
  match Aacmd.command argv with
  | .inten n => (.tool 0 "" "", IntenMap.level n)
  | .version => (.tool 0 "version: 3.14.16\n" "", inten)
  | .nothing => (.tool 0 "" "", inten)
  | .usage => (.tool 1 "" Aacmd.usage, inten)

/-- A number from 2^31 on is a negative one, and asks for a report. -/
def Usbdctrl.does (argv : List (List UInt8)) (inten : Nat) : Seen × Nat :=
  if 0 ≤ Usbdctrl.inten argv then (.tool 0 "" "", requested (Usbdctrl.inten argv).toNat)
  else if inten = 0 then (.tool 0 "light is off\n" "", inten)
  else (.tool 0 ("light is on, intensity " ++ toString inten ++ "\n") "", inten)

/-- What a job does to the light, and what is seen of it. -/
inductive Job.Does (inten : Nat) : Job → Seen → Nat → Prop where
  | aacmd (brightness : Int) (on : Bool) (argv : List (List UInt8)) :
      Does inten (.aacmd brightness on argv) (Aacmd.does argv inten).1 (Aacmd.does argv inten).2
  | usbdctrl (brightness : Int) (on : Bool) (argv : List (List UInt8)) :
      Does inten (.usbdctrl brightness on argv) (Usbdctrl.does argv inten).1
        (Usbdctrl.does argv inten).2
  | emu (buf : Memory) {rs : List SerialRead} {ls : List Line} (es : List Lamp.Event) :
      Delivers rs ls → es.filterMap Lamp.Event.line? = upTo Emu.isQuit (ls.map Line.bytes) →
      es.countP Lamp.Event.isIdle ≤ rs.count .timedOut →
      Does inten (.emu buf rs) (.emu (some 0) (es.foldl Lamp.next (.away inten)).answers)
        (es.foldl Lamp.next (.away inten)).inten

theorem drive_silent {W : Type} (env : Env W) (d : USBDimmer) (err : String) (val : Nat) (w : W) :
    (drive env d err val).Ensures w (fun r _ => r.status = 0 → r.out = "" ∧ r.err = "") := by
  apply ensures_bind
  intro r₁ w₁ _
  apply ensures_ite
  · intro _
    apply ensures_bind
    exact fun _ _ _ => ensures_pure fun failed => absurd failed (show ¬ (1 : Int) = 0 by decide)
  · intro _
    apply ensures_bind
    intro r₂ w₂ _
    apply ensures_bind
    exact fun _ _ _ => ensures_pure fun _ => ⟨rfl, rfl⟩

theorem drive_does {b : Behaviour} (all : b.Faultless) {dev : Device} (word : dev.inten < 65536)
    (d : USBDimmer) (err : String) (val : Nat) :
    (ToolRun.seen <$> drive (Device.env b) d err val).Returns dev (fun seen dev' =>
      seen = .tool 0 "" "" ∧ dev'.inten = requested val) := by
  obtain ⟨r, dev', hrun, status, there⟩ := drive_reaches all word d err val
  obtain ⟨out, err'⟩ := drive_silent _ d err val dev r dev' hrun status
  exact returns_map ⟨r, dev', hrun, by rw [ToolRun.seen, status, out, err'], there⟩

theorem Aacmd.main_does {b : Behaviour} (all : b.Faultless) {dev : Device}
    (word : dev.inten < 65536) (brightness : Int) (on : Bool) (argv : List (List UInt8)) :
    (ToolRun.seen <$> Aacmd.main (Device.env b) brightness on argv).Returns dev (fun seen dev' =>
      (seen, dev'.inten) = Aacmd.does argv dev.inten ∧ dev'.inten < 65536) := by
  unfold Aacmd.does
  cases asks : Aacmd.command argv with
  | usage | version | nothing =>
    simp only [Aacmd.main, asks, map_pure]
    exact returns_pure ⟨rfl, word⟩
  | inten n =>
    have bound := Aacmd.command_bounds asks
    rw [Aacmd.main_drives _ _ _ asks]
    refine (drive_does all word _ _ _).mono ?_
    rintro _ dev' ⟨rfl, there⟩
    have known : dev'.inten = IntenMap.level n := by
      rw [there, requested, Nat.min_eq_left (usbdVal_le bound), IntenMap.usbdVal_eq,
        Nat.min_eq_left bound]
    have small := IntenMap.level_byte n bound
    exact ⟨by rw [known], by omega⟩

/-- Asked for no level, it reports the one it finds. -/
theorem Usbdctrl.main_reports {b : Behaviour} (all : b.Faultless) {dev : Device}
    (word : dev.inten < 65536) (brightness : Int) (on : Bool) {argv : List (List UInt8)}
    (negative : Usbdctrl.inten argv < 0) :
    (ToolRun.seen <$> Usbdctrl.main (Device.env b) brightness on argv).Returns dev
      (fun seen dev' => (seen, dev'.inten) = Usbdctrl.does argv dev.inten) := by
  have zero : ¬ Usbdctrl.inten argv = 0 := by omega
  have positive : ¬ Usbdctrl.inten argv > 0 := by omega
  apply returns_map
  apply returns_bind
  refine (connect_mirrors all dev word _).mono ?_
  rintro ⟨ret, d⟩ dev₁ ⟨same, h⟩
  obtain ⟨rfl, rfl⟩ := Prod.mk.inj same
  simp only [ne_eq, not_true_eq_false, if_false, if_neg zero, if_neg positive]
  apply returns_bind
  refine (Device.disconnect_returns b _ dev₁).mono ?_
  intro d' dev' kept
  have shows := h.shows
  rw [USBDimmer.opened_shown _ (Int.natCast_nonneg _)] at shows
  have found : dev'.inten = dev.inten := kept.trans (Int.ofNat.inj shows)
  have asks : ¬ 0 ≤ Usbdctrl.inten argv := by omega
  simp only [Usbdctrl.does, if_neg asks]
  by_cases dark : dev.inten = 0
  · have off : (USBDimmer.opened dev.calls dev.inten).isLightOn = 0 := by
      simp [USBDimmer.opened, USBDimmer.isLightOn, dark]
    rw [off, if_neg (by decide), if_pos rfl, if_pos dark]
    exact returns_pure (by rw [found]; rfl)
  · have bright : (dev.inten : Int) > 0 := by omega
    have lit : (USBDimmer.opened dev.calls dev.inten).isLightOn = 1 := by
      simp [USBDimmer.opened, USBDimmer.isLightOn, dark]
    have level : (USBDimmer.opened dev.calls dev.inten).getBrightness = dev.inten := if_pos bright
    rw [lit, level, if_neg (by decide), if_neg (by decide), if_neg dark]
    exact returns_pure (by rw [found]; rfl)

theorem Usbdctrl.main_does {b : Behaviour} (all : b.Faultless) {dev : Device}
    (word : dev.inten < 65536) (brightness : Int) (on : Bool) (argv : List (List UInt8)) :
    (ToolRun.seen <$> Usbdctrl.main (Device.env b) brightness on argv).Returns dev
      (fun seen dev' => (seen, dev'.inten) = Usbdctrl.does argv dev.inten) := by
  rcases lt_or_ge (Usbdctrl.inten argv) 0 with negative | level
  · exact main_reports all word brightness on negative
  · unfold Usbdctrl.does
    rw [Usbdctrl.main_drives _ _ _ (Int.toNat_of_nonneg level).symm, if_pos level]
    refine (drive_does all word _ _ _).mono ?_
    rintro _ dev' ⟨rfl, there⟩
    rw [there]

theorem Usbdctrl.does_word (argv : List (List UInt8)) {inten : Nat} (word : inten < 65536) :
    (Usbdctrl.does argv inten).2 < 65536 := by
  unfold Usbdctrl.does requested
  split
  · exact Nat.lt_of_le_of_lt (Nat.min_le_right _ _) (by decide)
  · split <;> exact word

/-- Sent a quit, main returns 0. -/
theorem Emu.main_quits {W : Type} (env : Env W) (buf : Memory) (w : W) {rs : List SerialRead}
    {ls : List Line} (delivered : Delivers rs ls)
    (fits : ∀ l ∈ ls, 1 ≤ l.bytes.length ∧ l.bytes.length ≤ longest)
    (quits : ∃ l ∈ ls, isQuit l.bytes = true) :
    (main env buf rs).Ensures w (fun s _ => s.exited = some 0) := by
  obtain ⟨legible, whole⟩ := delivers_legible delivered fits
  refine (main_status env buf w legible).mono ?_
  rintro s w' ⟨lines, status⟩
  by_cases running : s.exited = none
  · obtain ⟨l, mem, quit⟩ := quits
    obtain ⟨k, inside, quit⟩ := upTo_last (l := ls.map Line.bytes)
      ⟨l.bytes, List.mem_map_of_mem mem, quit⟩
    rw [← whole, ← lines] at inside
    exact absurd (quit.symm.trans (status.running running k inside)) (by simp)
  · exact (status.returned running).1

theorem Job.run_does {b : Behaviour} (all : b.Faultless) {dev : Device}
    (word : dev.inten < 65536) {j : Job} {ls : List Line} (ends : j.Ends ls) :
    (j.run (Device.env b)).Returns dev (fun seen dev' =>
      j.Does dev.inten seen dev'.inten ∧ dev'.inten < 65536) := by
  cases j with
  | aacmd brightness on argv =>
    refine (Aacmd.main_does all word brightness on argv).mono ?_
    rintro seen dev' ⟨does, small⟩
    have out : Does dev.inten _ _ _ := .aacmd brightness on argv
    rw [← does] at out
    exact ⟨out, small⟩
  | usbdctrl brightness on argv =>
    refine (Usbdctrl.main_does all word brightness on argv).mono ?_
    intro seen dev' does
    have out : Does dev.inten _ _ _ := .usbdctrl brightness on argv
    have small := Usbdctrl.does_word argv word
    rw [← does] at out small
    exact ⟨out, small⟩
  | emu buf rs =>
    obtain ⟨delivered, quits, fits⟩ := ends
    apply returns_map
    obtain ⟨s, dev', reached, handed, es, plays⟩ := Emu.main_plays all buf word delivered fits
    refine ⟨s, dev', reached, ?_, ((Emu.main_returns all buf word rs).ensures s dev' reached).word⟩
    have returned := Emu.main_quits _ buf dev delivered fits quits s dev' reached
    have out : Does dev.inten (.emu buf rs) _ _ :=
      .emu buf es delivered (plays.lines.symm.trans handed) plays.waits
    rw [← plays.lamp, ← returned] at out
    exact out

/-- A job that comes to its end. -/
structure Turn where
  job : Job
  lines : List Line
  ends : job.Ends lines

def Turn.next {W : Type} (env : Env W) (seen : List Seen) (t : Turn) : Program W (List Seen) :=
  (· :: seen) <$> t.job.run env

theorem Turn.next_does {b : Behaviour} (all : b.Faultless) (seen : List Seen) (dev : Device)
    (t : Turn) (word : dev.inten < 65536) :
    (t.next (Device.env b) seen).Returns dev (fun seen' dev' =>
      (∃ out, seen' = out :: seen ∧ t.job.Does dev.inten out dev'.inten) ∧
        dev'.inten < 65536) := by
  apply returns_map
  refine (Job.run_does all word t.ends).mono ?_
  rintro out dev' ⟨does, small⟩
  exact ⟨⟨out, rfl, does⟩, small⟩

/-- Whatever the order of the runs, each of them returns, and does to the light that the one
before it left what its program does to a lamp. -/
theorem Turn.jobs_do {b : Behaviour} (all : b.Faultless) {dev : Device}
    (word : dev.inten < 65536) (turns : List Turn) :
    (Runs.run (Turn.next (Device.env b)) [] turns).Returns dev (fun _ _ => True) ∧
      Runs.EachStep (Turn.next (Device.env b)) (fun seen dev t seen' dev' =>
        ∃ out, seen' = out :: seen ∧ t.job.Does dev.inten out dev'.inten) [] dev turns := by
  constructor
  · have goes := Runs.returns_run (I := fun (_ : List Seen) (dev : Device) => dev.inten < 65536)
      (fun seen dev t word => (next_does all seen dev t word).mono fun _ _ out => out.2)
      turns (s := []) word
    exact goes.mono fun _ _ _ => trivial
  · apply Runs.eachStep_of_keeps (I := fun (_ : List Seen) (dev : Device) => dev.inten < 65536)
    · exact fun seen dev t word => ((next_does all seen dev t word).mono fun _ _ out => out.2).ensures
    · exact fun seen dev t seen' dev' word hs => ((next_does all seen dev t word).ensures _ _ hs).1
    · exact word

/-- A panel found far above the range, brought to a level, asked for its state through the
emulator, and asked for its level. -/
theorem Turn.jobs_do_three :
    let turns : List Turn :=
      [⟨.aacmd 7 true [argument "aacmd", argument "5", argument "L", argument "B100"], [], trivial⟩,
        ⟨.emu (fun _ => 0) (slowly [.state, .quit]), [.state, .quit], slowly_delivers _,
          by decide, by decide⟩,
        ⟨.usbdctrl 0 false [argument "usbdctrl"], [], trivial⟩]
    (Runs.run (Turn.next (Device.env .steady)) [] turns).Returns (Device.idle 5000)
        (fun _ _ => True) ∧
      Runs.EachStep (Turn.next (Device.env .steady)) (fun seen dev t seen' dev' =>
        ∃ out, seen' = out :: seen ∧ t.job.Does dev.inten out dev'.inten) [] (Device.idle 5000)
        turns :=
  jobs_do Behaviour.steady_faultless (by decide) _

end FlatPanel
