import LogPager.CommandLine.Launch

/-!
# Following the shown file

Once the last records are printed, the program catches up with the file and goes
on in turns.  Each turn looks whether the file was modified, takes the answers
that have arrived, and prints as many of the newest held records as were
appended since lines were printed.
-/

namespace LogPager

/-- A viewer that follows its file. -/
structure Follower where
  viewer : Viewer
  live : LiveTail
  observer : Observer
  /-- What was moved since lines were printed. -/
  pending : Movement := {}

namespace Follower

/-- A follower that saw the session as it is and has not read on yet. -/
def watching (viewer : Viewer) : Follower where
  viewer
  live := .new viewer.file viewer.batch
  observer := ((Observer.mk none).observe viewer.session.view).2

/-- The bytes of the followed file now. -/
def contents? (follower : Follower) (files : FileSystem) :
    Option (List UInt8) :=
  follower.viewer.folder.contents? files follower.live.file.name

/-- What catching up with the followed file comes to. -/
def caught (follower : Follower) (files : FileSystem) :
    Option (Except SessionError Movement) × LogFolder × Session :=
  follower.live.catchUp (follower.contents? files) follower.viewer.folder
    follower.viewer.session

/-- What a look at the followed file comes to after some events. -/
def polled (follower : Follower) (files : FileSystem)
    (events : List FileEvent) :
    Option (Except SessionError Movement) × LogFolder × Session :=
  follower.live.poll events (follower.contents? files) follower.viewer.folder
    follower.viewer.session

/-- Go on with what the live tail came to.  What it moved is still to be
printed; where it failed nothing is counted.  None if it came to no end. -/
def resume (follower : Follower)
    (caught : Option (Except SessionError Movement) × LogFolder × Session) :
    Option Follower :=
  let (result, folder, session) := caught
  result.map fun result =>
    { follower with
      viewer := { follower.viewer with folder, session }
      pending := match result with
        | .ok movement => follower.pending.combine movement
        | .error _ => follower.pending }

/-- Begin to follow the shown file with the lines that were appended since it
was read.  Nothing of them is printed yet. -/
def start (files : FileSystem) (viewer : Viewer) :
    Except ReadError (Option Follower) := do
  let _ ← viewer.folder.pathOf files viewer.file.name
  let follower := watching viewer
  return follower.resume (follower.caught files)

/-- Take answers that have arrived. -/
def poll (follower : Follower)
    (answer : LogFolder → Request → Except ReadError Message × LogFolder)
    (arrived : Nat) : Follower :=
  let viewer := follower.viewer
  let (movement, folder, session) :=
    viewer.session.settle answer arrived viewer.folder {}
  { follower with
    viewer := { viewer with folder, session }
    pending := follower.pending.combine movement }

/-- The lines to print, and the follower after they were printed. -/
def print (follower : Follower) (styling : Styling) : List String × Follower :=
  let (redraw, observer) :=
    follower.observer.observe follower.viewer.session.view
  let appended := follower.pending.added.newer
  let lines :=
    if redraw.hasBottom && 0 < appended then
      follower.viewer.tailLines styling appended
    else []
  (lines, { follower with observer, pending := {} })

/-- One turn with the files as they are, the events since the last one and the
number of answers that have arrived: the lines to print. -/
def turn (follower : Follower) (files : FileSystem) (events : List FileEvent)
    (answer : LogFolder → Request → Except ReadError Message × LogFolder)
    (arrived : Nat) (styling : Styling) : Option (List String × Follower) :=
  (follower.resume (follower.polled files events)).map fun follower =>
    (follower.poll answer arrived).print styling

end Follower
end LogPager
