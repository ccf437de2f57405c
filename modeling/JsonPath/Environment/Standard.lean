import JsonPath.Document.Escapes
import JsonPath.Pattern

/-!
# The environment of the program

The program searches texts for patterns, whose language has no classes by a Unicode property, and
decodes a string unless it has a surrogate without a partner. Nothing that is proved of queries is
about this environment alone; it is what examples are evaluated in.

## Main definitions

* `Environment.standard`: the environment that the commands are run in.
-/

namespace JsonPath

/-- The environment that the commands are run in. -/
def Environment.standard : Environment where
  search expression text := (Pattern.search? expression text).mapError Pattern.Refusal.message
  decode := Document.decoder

end JsonPath
