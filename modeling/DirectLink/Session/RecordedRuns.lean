import DirectLink.Session.StoreFaults

/-!
# Recorded runs

A program that runs alone while every command can fail with any error, carried out or not, and what
it has issued and been replied so far.
-/

namespace DirectLink

/-- The world and the commands so far, each with its reply. -/
structure Recording : Type where
  world : World
  events : List (Event backend)

/-- Every command can fail with any error, carried out or not. -/
def RecordingStep (s : Recording) (c : Cmd) (r : c.Reply) (s' : Recording) : Prop :=
  Exec (fun _ _ => True) s.world c r s'.world ∧ s'.events = s.events ++ [⟨c, r⟩]

@[reducible] def recordingLogic (Allows : Cmd → Prop) : Logic backend where
  State := Recording
  Allows _ c := Allows c
  Step := RecordingStep

end DirectLink
