import LanguageHost.Machine.Description
import LanguageHost.Session.Listener
import LanguageHost.Session.Peer

/-!
Scripted servers described in JSON, and the reports of servers written in it.
-/
namespace LanguageHost.Description

/-- The first answer that is there. -/
def answer? (j : Json) : Option ScriptedAnswer :=
  match j.get? "result", j.get? "error", j.get? "raw", text? j "body" with
  | some r, _, _, _ => some (.result r.canonical)
  | _, some e, _, _ => some (.error e.canonical)
  | _, _, some bs, _ => some (.raw (octets bs))
  | _, _, _, some s => some (.body (Utf8.ofString s))
  | _, _, _, _ => none

def cue (j : Json) : Cue where
  answer := answer? j
  ignores := flag j "ignore"
  holds := flag j "hold"
  sends := items (field j "send")
  closes := flag j "close"

/-- One cue, or several that take turns. -/
def cues : Json → List Cue
  | .arr js => js.map cue
  | j => [cue j]

/-- Cues by their methods, beside what holds for the whole server. -/
def script (j : Json) : Script where
  cues := Table.ofList ((members j).filterMap fun (k, v) =>
    if k = "linger" ∨ k = "launch_error" then none else some (k, cues v))
  lingers := flag j "linger"

/-- The kind of a report, and what it tells. -/
def report : Report → String × Json
  | .diagnostics uri list => ("Diagnostics", .obj [("uri", .str uri), ("diagnostics", .arr list)])
  | .message type message => ("Message", .obj [("type", .int type), ("message", .str message)])
  | .applyEdit edit => ("ApplyEditRequested", edit)
  | .showDocument params => ("ShowDocumentRequested", params)
  | .progress params => ("Progress", params)
  | .refresh method => ("RefreshRequested", .str method.word)
  | .exited => ("Exited", .null)

def event (e : LanguageEvent) : Json :=
  let (kind, data) := report e.report
  .obj [("language", .str e.language), ("event", .str kind), ("data", data)]

end LanguageHost.Description
