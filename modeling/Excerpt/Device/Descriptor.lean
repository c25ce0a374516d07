import Excerpt.Device.Terminal
import Excerpt.Text.Utf8

/-! Descriptors: sinks of bytes. A write may take only a part of what it is
handed; the rest is handed over again until nothing is left. -/
namespace Excerpt

/-- How a descriptor answers when it is handed some bytes. Unless it fails it
takes at least one of them, however few it asks for; when it fails it takes
none. -/
inductive Answer where
  | takesAll
  | takes (count : Nat)
  | fails (fault : Fault)

/-- The bytes a descriptor holds, the writes it has answered, and its answers. -/
structure Descriptor where
  content : Array UInt8
  writes : Nat
  answer : Nat → Answer

namespace Descriptor

def ofAnswers (answer : Nat → Answer) : Descriptor := ⟨#[], 0, answer⟩

/-- Takes whatever it is handed. -/
def ready : Descriptor := ofAnswers fun _ => .takesAll

def closedFault : Fault := .error "EBADF: bad file descriptor, write" (some "EBADF")

/-- Fails whenever it is handed bytes. -/
def closed : Descriptor := ofAnswers fun _ => .fails closedFault

/-- Hands bytes over until all are taken or a write fails. -/
def writeAll (d : Descriptor) (bytes : List UInt8) : Descriptor × Option Fault :=
  match bytes with
  | [] => (d, none)
  | byte :: rest =>
    match d.answer d.writes with
    | .fails fault => ({ d with writes := d.writes + 1 }, some fault)
    | .takesAll =>
      ({ d with content := d.content ++ (byte :: rest), writes := d.writes + 1 }, none)
    | .takes count =>
      writeAll
        { d with
          content := d.content ++ (byte :: rest.take (count - 1))
          writes := d.writes + 1 }
        (rest.drop (count - 1))
  termination_by bytes.length
  decreasing_by simp only [List.length_drop, List.length_cons]; omega

def text (d : Descriptor) : String := Utf8.decode d.content.toList

end Descriptor

/-- Hands each text over in bytes. -/
def Sink.bytes {τ : Type} (encode : τ → List UInt8) : Sink Descriptor τ where
  put d chunk := d.writeAll (encode chunk)

def Sink.descriptor : Sink Descriptor := .bytes fun chunk => Utf8.encodeChars chunk.chars

end Excerpt
