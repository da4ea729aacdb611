import SoundDesk.Mixer
import SoundDesk.Provider.ByName

/-!
# Demo — a tour of a mixer over one card

A card with five controls is opened by name, its elements are shown, and what the hardware does is followed.
The state of the application is the list of lines shown so far.
-/

namespace SoundDesk.Demo

/-- The mixer of the tour. -/
abbrev TourMixer : Type := Mixer (List String) Unit

/-- Show a line. -/
def say (line : String) : Action (World (List String)) Unit :=
  modify fun w => { w with app := w.app ++ [line] }

/-- A text with blanks up to a width. -/
def padded (width : Nat) (s : String) : String :=
  s ++ String.ofList (List.replicate (width - s.length) ' ')

/-- A number in at least four hexadecimal digits. -/
def hex (n : Nat) : String := "0x" ++ Json.hex4 n

/-- The controls of the card. -/
def controls : List (ControlId × ControlInfo) :=
  [(.mixer 1 "Master Playback Volume" 0, (ControlInfo.integer 2 0 31).withDb (-4650) 0),
    (.mixer 2 "Master Playback Switch" 0, .boolean 2),
    (.mixer 3 "PCM Playback Volume" 0, .integer 2 0 255),
    (.mixer 4 "Capture Source" 0, .enumerated 1 ["Mic", "Line"]),
    (.mixer 5 "Mic Boost Volume" 0, .integer 1 0 3)]

/-- The machine of the tour: its one card. -/
def machine : Cards := .ofList [("hw:0", controls)]

/-- The configuration of the tour. -/
def config : MixerConfig :=
  (MixerConfig.empty.withMixer "default"
    ((MixerDefinition.ofType "basic").withParam "device" (.string "hw:0"))).withRedirect "card0" "default"

/-- The providers of the tour. -/
def registry (environment : Option OsPath) : Registry (Provider (List String) Unit) Unit :=
  ⟨.standard environment, .disabled, ByName.builtins (), [], .empty⟩

/-- What is shown of an element. -/
def describe (m : TourMixer) (e : Element (List String)) : Action (World (List String)) String := do
  let head := "  " ++ padded 16 (toString e.id) ++ " caps=" ++ hex e.caps.bits.toNat
  let volume ←
    if e.hasVolume .playback then do
      let range ← e.volumeRange m.sessions .playback
      let now ← e.volume m.sessions .playback 0
      pure (" volume " ++ toString range.lo.toInt ++ ".." ++ toString range.hi.toInt ++ " ["
        ++ Channel.name 0 ++ "=" ++ toString now.toInt ++ "]")
    else pure ""
  let group ←
    if e.hasSwitchExclusive .capture then do
      let group ← liftM (e.groupOf .capture)
      pure (" source group " ++ toString group)
    else pure ""
  return head ++ volume ++ group

/-- Show elements, one a line. -/
def showAll (m : TourMixer) : List (Element (List String)) → Action (World (List String)) Unit
  | [] => pure ()
  | e :: rest => do
    say (← describe m e)
    showAll m rest

/-- Something happens to the card of the tour. -/
def hardware (f : Card → Card) : Action (World (List String)) Unit :=
  modify fun w => { w with cards := w.cards.update 0 f }

/-- Follow what happened to the card. -/
def follow (m : TourMixer) : Action (World (List String)) (Nat × TourMixer) := .ofStep fun w =>
  match m.pump w with
  | (.ok n, m, w) => (.ok (n, m), w)
  | (.error e, _, w) => (.error e, w)

/-- Open the mixer of the tour. -/
def opened (environment : Option OsPath) : Action (World (List String)) TourMixer := .ofStep fun w =>
  match Mixer.openNamed (registry environment) () config ⟨"card0", .none⟩ w with
  | (r, _, _, w) => (r, w)

/-- Set the volume of the element `Master` and show it. -/
def setMaster (m : TourMixer) : Action (World (List String)) Unit :=
  match m.element? ⟨"Master", 0⟩ with
  | none => pure ()
  | some e => do
    e.setDbAll m.sessions .playback (-1200) .nearest
    let db ← e.db m.sessions .playback 0
    say ("Master at " ++ toString db.toInt ++ " (0.01 dB)")

/-- The listener of the tour shows each added element. -/
def listener : MixerListener (List String) := fun (mask, e) lines =>
  (.ok (), lines ++ ["  mixer event " ++ toString mask ++ " on " ++ toString e.id])

/-- **The tour**, in an environment that may name a directory of modules. -/
def tour (environment : Option OsPath) : Action (World (List String)) Unit := do
  say "mixkit - simple mixer demo"
  say "=========================="
  say ""
  let m ← opened environment
  let m := { m with core := { m.core with listener := some listener } }
  say ("Elements of '" ++ m.name ++ "':")
  showAll m m.elements
  say ""
  say "Hardware changes Master volume and selects Line..."
  hardware fun card => (card.setValues 1 [20, 20]).2
  hardware fun card => (card.setValues 4 [1]).2
  let (handled, m) ← follow m
  say ("Handled " ++ toString handled ++ " control events")
  setMaster m
  say ""
  say "Hot-unplugging PCM Playback Volume..."
  hardware fun card => (card.removeControl 3).2
  let (_, m) ← follow m
  say (toString m.core.count ++ " elements left")
  Action.ofStep m.close
  say ""
  say "Demo complete."

/-- Whether the tour came to its end, and the lines that it showed. -/
def result (environment : Option OsPath) : Except Fault Unit × List String :=
  let (r, w) := tour environment ⟨machine, []⟩
  (r, w.app)

end SoundDesk.Demo
