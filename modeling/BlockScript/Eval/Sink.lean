/-! Where programs write. A sink with a limit keeps as many bytes as it may, also the first part of
a text that does not fit, and refuses the rest. -/
namespace BlockScript

structure Sink where
  written : ByteArray
  limit : Option Nat

namespace Sink

def unlimited : Sink := ⟨.empty,none⟩

def limited (limit : Nat) : Sink := ⟨.empty,some limit⟩

def write (sink : Sink) (text : String) : Bool × Sink :=
  let bytes := text.toUTF8
  match sink.limit with
  | none => (true,{ sink with written := sink.written ++ bytes })
  | some limit =>
    let room := limit - sink.written.size
    if bytes.size ≤ room then (true,{ sink with written := sink.written ++ bytes })
    else (false,{ sink with written := sink.written ++ bytes.extract 0 room })

end Sink

end BlockScript
