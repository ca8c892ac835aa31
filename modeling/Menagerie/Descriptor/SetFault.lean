/-! Why octets fail to be a usable set of file descriptors. -/

namespace Menagerie.Descriptor

/-- What a descriptor has a name for. -/
inductive Element where
  | file | message | enumeration | enumerationValue | field | oneof | service | method
  deriving DecidableEq, Repr

inductive SetFault where
  | undecodable
  | unexpectedEnd
  | unexpectedGroup
  | unnamed (what : Element)
  | reported (why : String)
  deriving DecidableEq, Repr

/-- How a missing name is reported. -/
def Element.missing : Element → String
  | file => "missing name"
  | message => "missing message name"
  | enumeration => "missing enum name"
  | enumerationValue => "missing enum value name"
  | field => "missing field name"
  | oneof => "missing oneof name"
  | service => "missing service name"
  | method => "missing method name"

namespace SetFault

/-- What is wrong with a set that can be decoded. -/
def why? : SetFault → Option String
  | undecodable => none
  | unexpectedEnd => some "unexpected end of FileDescriptorSet buffer"
  | unexpectedGroup => some "unexpected group wire type in FileDescriptorSet"
  | unnamed what => some what.missing
  | reported why => some why

def message (f : SetFault) : String :=
  match f.why? with
  | none => "error decoding FileDescriptorSet from buffer"
  | some why => "invalid FileDescriptorSet - " ++ why

end SetFault

end Menagerie.Descriptor
