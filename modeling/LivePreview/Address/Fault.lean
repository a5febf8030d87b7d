namespace LivePreview

inductive AddressFault where
  | noScheme
  | emptyHost
  | invalidPort
  | invalidV4
  | invalidV6
  | invalidName
  | invalidCharacter
  deriving DecidableEq, Repr

namespace AddressFault

def kind : AddressFault → String
  | .noScheme => "RelativeUrlWithoutBase"
  | .emptyHost => "EmptyHost"
  | .invalidPort => "InvalidPort"
  | .invalidV4 => "InvalidIpv4Address"
  | .invalidV6 => "InvalidIpv6Address"
  | .invalidName => "IdnaError"
  | .invalidCharacter => "InvalidDomainCharacter"

def reason : AddressFault → String
  | .noScheme => "relative URL without a base"
  | .emptyHost => "empty host"
  | .invalidPort => "invalid port number"
  | .invalidV4 => "invalid IPv4 address"
  | .invalidV6 => "invalid IPv6 address"
  | .invalidName => "invalid international domain name"
  | .invalidCharacter => "invalid domain character"

def message (fault : AddressFault) : String :=
  "Bad URL: failed to parse URL: " ++ fault.kind ++ ": " ++ fault.reason

end AddressFault

end LivePreview
