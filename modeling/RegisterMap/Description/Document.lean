import RegisterMap.Description.Decode
import RegisterMap.Export.Event
import RegisterMap.Xml.Document

/-!
# Device documents

The device that the bytes of a document describe.
-/

namespace RegisterMap.Description

open RegisterMap.Export RegisterMap.Model RegisterMap.Report

inductive DocumentError where
  | malformed (source : String)
  | undecodable (e : DecodeError)
  deriving DecidableEq, Repr

namespace DocumentError

def message : DocumentError → String
  | malformed source => "Error parsing SVD document " ++ source
  | undecodable e => e.message

end DocumentError

/-- Read a device from the bytes of a document, which is called by the name of its source. -/
def readDevice (source : String) (bytes : List UInt8) : Trace DocumentError Event Device := do
  let root ← Trace.ofExcept (fun _ => .malformed source) (Xml.parse bytes)
  let device ← Trace.ofExcept .undecodable (decodeDevice root)
  Trace.record (.decoded source device.peripherals.length)
  return device

end RegisterMap.Description
