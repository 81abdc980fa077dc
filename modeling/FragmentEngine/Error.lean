import FragmentEngine.Expr.Token
import FragmentEngine.Fragment.FieldType
import FragmentEngine.Function.Arity
import FragmentEngine.Text.Escaped
import FragmentEngine.Text.Utf8
/-!
# Errors

The causes for which an operation fails, sorted by the class that is reported to clients, and the message of
each. A message starts with the name of its class.
-/

namespace FragmentEngine

/-- The class of an error. -/
inductive ErrorKind where
  | missing
  | parse
  | execution
  | catalog
  | storage
  | inputOutput
  | overflow
  deriving DecidableEq

/-- The name of a class as clients see it. -/
def ErrorKind.name : ErrorKind → String
  | .missing => "NullParam"
  | .parse => "Parse"
  | .execution => "Exec"
  | .catalog => "MetaDb"
  | .storage => "Api"
  | .inputOutput => "Io"
  | .overflow => "Overflow"

/-! ## Malformed texts -/

/-- What a parser was looking for. -/
inductive Expected where
  | token (t : Token)
  | expression
  | identifier
  | endOfExpression
  deriving DecidableEq

def Expected.describe : Expected → String
  | .token t => t.display
  | .expression => "expression"
  | .identifier => "identifier"
  | .endOfExpression => "end of expression"

inductive ParseError where
  | unexpectedCharacter (c : Char) (position : Nat)
  | unterminatedString (position : Nat)
  | invalidNumber (position : Nat)
  | unexpectedToken (expected : Expected) (found : Token)
  | nestedTooDeeply (limit : Nat)
  | unknownFieldType (name : String)
  | unknownOperation (name : String)
  /-- A list of entries that stops being one where `rest` begins. -/
  | malformedList (text : String) (rest : List Char)
  /-- A query that stops being one where `rest` begins. -/
  | malformedQuery (text : String) (rest : List Char)
  | unknownKey (key : String)
  | duplicateKey (key : String)
  | notInteger (key value : String)
  | notCount (key value : String)
  | untypedArgument (item : String)
  | invalidArgument (type payload : String)
  | unknownArgumentType (name : String)
  | invalidName (name : String)
  | invalidLimit (text : String)
  | limitCount (given : Nat)
  | missingScheme
  | missingHost
  | invalidPort (text : String)
  deriving DecidableEq

/-- The words that report where a text stops matching its grammar. -/
def unconsumed (rest : List Char) : String :=
  s!"Parsing Error: Error \x7b input: {Text.escaped rest}, code: Eof \x7d"

def ParseError.message : ParseError → String
  | .unexpectedCharacter c position =>
    s!"Lexer error: unexpected character '{c}' at position {position}"
  | .unterminatedString position =>
    s!"Lexer error: unterminated string literal starting at position {position}"
  | .invalidNumber position => s!"Lexer error: invalid number format at position {position}"
  | .unexpectedToken expected found =>
    s!"Parse error: unexpected token '{found.display}', expected {expected.describe}"
  | .nestedTooDeeply limit => s!"Parse error: expression nested too deeply (limit {limit})"
  | .unknownFieldType name => s!"Parse error: unknown field type '{name}'"
  | .unknownOperation name => s!"Parse error: unknown operation '{name}'"
  | .malformedList text rest => s!"Parse error: malformed multi-value '{text}': {unconsumed rest}"
  | .malformedQuery text rest => s!"Parse error: malformed query '{text}': {unconsumed rest}"
  | .unknownKey key => s!"Parse error: unknown query key '{key}'"
  | .duplicateKey key => s!"Parse error: duplicate query key '{key}'"
  | .notInteger key value => s!"Parse error: '{key}' must be an integer, got '{value}'"
  | .notCount key value => s!"Parse error: '{key}' must be a non-negative integer, got '{value}'"
  | .untypedArgument item => s!"Parse error: binary argument '{item}' has no type"
  | .invalidArgument type payload => s!"Parse error: invalid {type} argument '{payload}'"
  | .unknownArgumentType name => s!"Parse error: unknown argument type '{name}'"
  | .invalidName name => s!"Parse error: invalid name '{name}'"
  | .invalidLimit text => s!"Parse error: invalid limit value '{text}'"
  | .limitCount given => s!"Parse error: limit takes one or two values, got {given}"
  | .missingScheme => "Parse error: invalid URL: missing scheme"
  | .missingHost => "Parse error: invalid URL: missing host"
  | .invalidPort text => s!"Parse error: invalid port: {text}"

/-! ## Failures of execution -/

inductive ExecError where
  | unknownSymbol (name : String)
  | argumentCount (function : String) (required : Arity) (given : Nat)
  | argumentType (context found : String)
  | symbolTableFull (capacity : Nat)
  | divisionByZero
  | functionRebound (name : String)
  | functionRegistered (name : String)
  | notPositive (function quantity : String)
  | integerOverflow (function : String)
  | extentOverflow (function : String)
  | emptyGroup (function : String)
  | nestedAggregate (function : String)
  | noValue
  | fieldNotFound (field fragment : String)
  | typeMismatch (found : String) (expected : FieldType)
  | recordWidth (expected given : Nat)
  | noRecordField (index : Nat)
  | invalidText (cause : Text.Utf8.Invalid)
  | cellWidth (type : FieldType) (length : Nat)
  | fragmentWidth (fragment : String) (fields given : Nat)
  | rowOutOfRange (row : Nat) (fragment : String)
  | noIdentifier (fragment : String)
  | permutationLength
  | permutationIndex (index : Nat)
  | argumentNull (position : Nat)
  | argumentMissing (position given : Nat)
  | noInputFor (field : String)
  | ambiguousField (field : String) (fragments : Nat)
  | aggregateInWhere
  | noSources
  | whereRequired
  | identifiersBroken (fragment : String) (row : Nat)
  | groupBinary
  | groupCount (given : Nat)
  | aggregateInGroup
  | groupNotIdentifier (name : String)
  | orderType (type : FieldType)
  | orderNotNumeric (field : String)
  | fieldAliasCount (aliases fields : Nat)
  | columnLength (column : String) (rows expected : Nat)
  | duplicateColumn (name : String)
  | sequentialOverflow
  | insertFields (given expected : List String)
  | insertCount (expected given : Nat)
  | multiInsertCount (given width : Nat)
  | statementComplete (fragment : String) (runs : Nat)
  | statementOpen (db fragment : String)
  | noStatement
  | databaseBusy (db : String)
  | fieldTypeCount (fields types : Nat)
  | sourceAliasCount (aliases sources : Nat)
  | dimensionCount (key : String) (given dimensions : Nat)
  deriving DecidableEq

def ExecError.cause : ExecError → String
  | .unknownSymbol name => s!"unknown symbol '{name}'"
  | .argumentCount function required given =>
    s!"function '{function}' requires {required.describe} argument(s), got {given}"
  | .argumentType context found => s!"{context} expects a numeric argument, got {found}"
  | .symbolTableFull capacity => s!"symbol table is full (capacity {capacity})"
  | .divisionByZero => "division by zero"
  | .functionRebound name => s!"'{name}' names a function and cannot be rebound"
  | .functionRegistered name => s!"function '{name}' is already registered"
  | .notPositive function quantity => s!"{function}: {quantity} must be positive"
  | .integerOverflow function => s!"{function}: integer overflow"
  | .extentOverflow function => s!"{function}: extent product overflows"
  | .emptyGroup function => s!"{function}: empty group"
  | .nestedAggregate function => s!"aggregate '{function}' cannot take an aggregate argument"
  | .noValue => "expression produced no value"
  | .fieldNotFound field fragment => s!"field '{field}' not found in fragment '{fragment}'"
  | .typeMismatch found expected => s!"cannot convert {found} to {expected.name}"
  | .recordWidth expected given => s!"record expects {expected} values, got {given}"
  | .noRecordField index => s!"record has no field {index}"
  | .invalidText cause => s!"invalid UTF-8 in string field: {cause.message}"
  | .cellWidth type length => s!"{type.name} field has {length} bytes, expected 8"
  | .fragmentWidth fragment fields given =>
    s!"fragment '{fragment}' has {fields} fields, record has {given}"
  | .rowOutOfRange row fragment => s!"row {row} out of range in fragment '{fragment}'"
  | .noIdentifier fragment => s!"fragment '{fragment}' has no identifier column"
  | .permutationLength => "row permutation has the wrong length"
  | .permutationIndex index => s!"invalid row index {index} in permutation"
  | .argumentNull position => s!"argument ?{position} is null"
  | .argumentMissing position given => s!"argument ?{position} not supplied ({given} given)"
  | .noInputFor field => s!"no input fragment for field '{field}'"
  | .ambiguousField field fragments =>
    s!"field '{field}' is ambiguous across {fragments} fragments; qualify it"
  | .aggregateInWhere => "aggregate functions are not allowed in WHERE"
  | .noSources => "query has no input fragment"
  | .whereRequired => "a WHERE clause is required when selecting from several fragments"
  | .identifiersBroken fragment row =>
    s!"identifiers of fragment '{fragment}' are not unique, ascending and contiguous at row {row}"
  | .groupBinary => "GROUP BY expression produced a binary value"
  | .groupCount given => s!"GROUP BY takes exactly one expression, got {given}"
  | .aggregateInGroup => "aggregate functions are not allowed in GROUP BY"
  | .groupNotIdentifier name => s!"GROUP BY may only reference identifier columns, '{name}' is not one"
  | .orderType type => s!"ORDER BY needs a LONG or REAL column, got {type.name}"
  | .orderNotNumeric field => s!"ORDER BY column '{field}' is not numeric"
  | .fieldAliasCount aliases fields => s!"{aliases} field aliases given for {fields} fields"
  | .columnLength column rows expected => s!"column '{column}' produced {rows} rows, expected {expected}"
  | .duplicateColumn name => s!"duplicate output field '{name}'"
  | .sequentialOverflow => "sequential_id overflows the identifier range"
  | .insertFields given expected =>
    let given := ", ".intercalate given
    let expected := ", ".intercalate expected
    s!"insert fields [{given}] do not match fragment fields [{expected}]"
  | .insertCount expected given => s!"insert needs {expected} values, got {given}"
  | .multiInsertCount given width =>
    s!"multi-insert value count {given} is not a multiple of {width} fields"
  | .statementComplete fragment runs => s!"statement for '{fragment}' already received its {runs} run(s)"
  | .statementOpen db fragment => s!"statement for '{db}.{fragment}' is still open"
  | .noStatement => "no open statement; run create_frag first"
  | .databaseBusy db => s!"database '{db}' has a statement in progress"
  | .fieldTypeCount fields types => s!"{fields} field names but {types} field types"
  | .sourceAliasCount aliases sources => s!"{aliases} aliases given for {sources} input fragments"
  | .dimensionCount key given dimensions => s!"'{key}' has {given} entries, 'dim_type' has {dimensions}"

/-! ## Failures of the catalog, the store and the disk -/

inductive CatalogError where
  | databaseNotFound (name : String)
  | fragmentNotFound (key : String)
  | alreadyExists (name : String)
  | malformed
  deriving DecidableEq

def CatalogError.cause : CatalogError → String
  | .databaseNotFound name => s!"database '{name}' not found"
  | .fragmentNotFound key => s!"fragment '{key}' not found"
  | .alreadyExists name => s!"'{name}' already exists"
  | .malformed => "malformed catalog"

inductive StoreError where
  | databaseNotStored (db : String)
  | fragmentNotStored (db fragment : String)
  | notAnImage
  | unsupportedVersion (version : Nat)
  | unknownTypeTag (tag : Nat)
  | truncatedImage
  | imageText (cause : Text.Utf8.Invalid)
  | noProducer (name : String)
  | notANumber (line : Nat) (word : String)
  | dimensionRange (first last columns : Nat)
  | sourceTooShort (path : String) (rows requested : Nat)
  deriving DecidableEq

def StoreError.cause : StoreError → String
  | .databaseNotStored db => s!"database '{db}' is not stored"
  | .fragmentNotStored db fragment => s!"fragment '{db}.{fragment}' is not stored"
  | .notAnImage => "not a fragment image"
  | .unsupportedVersion version => s!"unsupported fragment version {version}"
  | .unknownTypeTag tag => s!"unknown field type tag {tag}"
  | .truncatedImage => "truncated fragment image"
  | .imageText cause => s!"invalid UTF-8 in fragment image: {cause.message}"
  | .noProducer name => s!"no fragment producer named '{name}'"
  | .notANumber line word => s!"line {line}: '{word}' is not a number"
  | .dimensionRange first last columns => s!"dimension range {first}..{last} outside 1..{columns}"
  | .sourceTooShort path rows requested => s!"'{path}' holds {rows} rows, {requested} requested"

inductive DiskError where
  | notFound
  | exists
  | notDirectory
  | isDirectory
  | nameTooLong
  /-- A route holds the character that ends texts. -/
  | nulInName
  /-- The bytes end before what is read from them. -/
  | unexpectedEnd
  /-- A file that should hold text does not. -/
  | notText
  /-- A line of input is not text. -/
  | lineNotText (cause : Text.Utf8.Invalid)
  deriving DecidableEq

def DiskError.cause : DiskError → String
  | .notFound => "No such file or directory (os error 2)"
  | .exists => "File exists (os error 17)"
  | .notDirectory => "Not a directory (os error 20)"
  | .isDirectory => "Is a directory (os error 21)"
  | .nameTooLong => "File name too long (os error 36)"
  | .nulInName => "file name contained an unexpected NUL byte"
  | .unexpectedEnd => "failed to fill whole buffer"
  | .notText => "stream did not contain valid UTF-8"
  | .lineNotText cause => cause.message

/-! ## All errors -/

inductive Error where
  /-- A mandatory parameter is absent or empty. -/
  | missing (parameter : String)
  | parse (e : ParseError)
  | exec (e : ExecError)
  | catalog (e : CatalogError)
  | store (e : StoreError)
  | disk (e : DiskError)
  /-- A number left its range, and the query was abandoned. -/
  | overflow
  deriving DecidableEq

namespace Error

def kind : Error → ErrorKind
  | .missing _ => .missing
  | .parse _ => .parse
  | .exec _ => .execution
  | .catalog _ => .catalog
  | .store _ => .storage
  | .disk _ => .inputOutput
  | .overflow => .overflow

def message : Error → String
  | .missing parameter => s!"Missing parameter: {parameter}"
  | .parse e => e.message
  | .exec e => s!"Execution error: {e.cause}"
  | .catalog e => s!"MetaDB error: {e.cause}"
  | .store e => s!"Storage API error: {e.cause}"
  | .disk e => s!"I/O error: {e.cause}"
  | .overflow => "Number out of range"

end Error

end FragmentEngine
