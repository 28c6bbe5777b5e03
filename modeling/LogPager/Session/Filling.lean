import LogPager.Session.LiveTail

/-!
# Filling a window

Before the last records of a file are shown, older ones are asked for until
enough are held or the file has no more.
-/

namespace LogPager.Session

/-- Answer the requests in flight and ask for older records, until `wanted`
records are held, the start of the file is reached or nothing more can be asked
for.  An error of the source ends it.  An answer from a file that stays as it
is brings a record or reaches the start of the file, so that more rounds than
wanted records are not needed. -/
def fill (answer : σ → Request → Except ReadError Message × σ)
    (wanted : Nat) :
    (rounds : Nat) → σ → Session → Except ReadError Unit × σ × Session
  | 0, source, session => (.ok (), source, session)
  | rounds + 1, source, session =>
      let (source, session) :=
        match session.answerOne answer source with
        | some (_, source, session) => (source, session)
        | none => (source, session)
      match session.slots.status .older with
      | .failed error => (.error error, source, session)
      | .idle | .pending =>
          if wanted ≤ session.held || session.view.reached.older then
            (.ok (), source, session)
          else
            let (made, session) := session.requestMore .older
            if made || session.hasPending then
              fill answer wanted rounds source session
            else (.ok (), source, session)

/-- Fill the window until `wanted` records are held. -/
def fillOlder (answer : σ → Request → Except ReadError Message × σ)
    (wanted : Nat) (source : σ) (session : Session) :
    Except ReadError Unit × σ × Session :=
  session.fill answer wanted (wanted + 1) source

end LogPager.Session
