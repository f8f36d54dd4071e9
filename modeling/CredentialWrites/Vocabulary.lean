/-!
# The closed vocabularies

Kinds of values, operations, actors, error codes, log levels and log formats. Each member has a name
and a token; the token is what goes over the wire or comes from the configuration.

* `Member` : a member of any of the vocabularies.
* `Operation.ofToken?_token`, `ActorType.ofToken?_token` : every member is found by its token.
-/

namespace CredentialWrites

/-- Shapes of credential values. -/
inductive ValueType where
  | value | json | password | user | certificate | rsa | ssh
deriving Repr, DecidableEq

/-- Operations that an actor can be granted on a credential. -/
inductive Operation where
  | read | write | delete | readAcl | writeAcl
deriving Repr, DecidableEq

/-- Kinds of principals that can be granted permissions. -/
inductive ActorType where
  | app | user | client
deriving Repr, DecidableEq

/-- Codes carried by the errors of the builders. -/
inductive ErrorCode where
  | invalidArgument | invalidState
deriving Repr, DecidableEq

/-- Log levels that a configuration can name. -/
inductive LogLevel where
  | debug | info | warning | error | critical
deriving Repr, DecidableEq

/-- Output formats of the log. -/
inductive LogFormat where
  | json | console
deriving Repr, DecidableEq

namespace ValueType

/-- All members in their order. -/
def all : List ValueType := [value, json, password, user, certificate, rsa, ssh]

/-- The name of a member. -/
def name : ValueType → String
  | value => "VALUE"
  | json => "JSON"
  | password => "PASSWORD"
  | user => "USER"
  | certificate => "CERTIFICATE"
  | rsa => "RSA"
  | ssh => "SSH"

/-- The token of a member. -/
def token : ValueType → String
  | value => "value"
  | json => "json"
  | password => "password"
  | user => "user"
  | certificate => "certificate"
  | rsa => "rsa"
  | ssh => "ssh"

end ValueType

namespace Operation

/-- All members in their order. -/
def all : List Operation := [read, write, delete, readAcl, writeAcl]

/-- The name of a member. -/
def name : Operation → String
  | read => "READ"
  | write => "WRITE"
  | delete => "DELETE"
  | readAcl => "READ_ACL"
  | writeAcl => "WRITE_ACL"

/-- The token of a member. -/
def token : Operation → String
  | read => "read"
  | write => "write"
  | delete => "delete"
  | readAcl => "read_acl"
  | writeAcl => "write_acl"

/-- The member with a token. -/
def ofToken? (s : String) : Option Operation :=
  all.find? (·.token = s)

theorem ofToken?_token (op : Operation) : ofToken? op.token = some op := by
  cases op <;> decide

end Operation

namespace ActorType

/-- All members in their order. -/
def all : List ActorType := [app, user, client]

/-- The name of a member. -/
def name : ActorType → String
  | app => "APP"
  | user => "USER"
  | client => "CLIENT"

/-- The token of a member. -/
def token : ActorType → String
  | app => "mtls-app"
  | user => "uaa-user"
  | client => "uaa-client"

/-- The member with a token. -/
def ofToken? (s : String) : Option ActorType :=
  all.find? (·.token = s)

theorem ofToken?_token (t : ActorType) : ofToken? t.token = some t := by
  cases t <;> decide

end ActorType

namespace ErrorCode

/-- All members in their order. -/
def all : List ErrorCode := [invalidArgument, invalidState]

/-- The token of a member, which is also its name. -/
def token : ErrorCode → String
  | invalidArgument => "INVALID_ARGUMENT"
  | invalidState => "INVALID_STATE"

end ErrorCode

namespace LogLevel

/-- All members in their order. -/
def all : List LogLevel := [debug, info, warning, error, critical]

/-- The token of a member, which is also its name. -/
def token : LogLevel → String
  | debug => "DEBUG"
  | info => "INFO"
  | warning => "WARNING"
  | error => "ERROR"
  | critical => "CRITICAL"

/-- The rank of a level among all whole numbers. -/
def rank : LogLevel → Int
  | debug => 10
  | info => 20
  | warning => 30
  | error => 40
  | critical => 50

/-- The member with a token. -/
def ofToken? (s : String) : Option LogLevel :=
  all.find? (·.token = s)

end LogLevel

namespace LogFormat

/-- All members in their order. -/
def all : List LogFormat := [json, console]

/-- The name of a member. -/
def name : LogFormat → String
  | json => "JSON"
  | console => "CONSOLE"

/-- The token of a member. -/
def token : LogFormat → String
  | json => "json"
  | console => "console"

/-- The member with a token. -/
def ofToken? (s : String) : Option LogFormat :=
  all.find? (·.token = s)

end LogFormat

/-- The vocabularies. -/
inductive Vocabulary where
  | valueType | operation | actorType | errorCode | logLevel | logFormat
deriving Repr, DecidableEq

/-- A member of one of the vocabularies. -/
inductive Member where
  | valueType (m : ValueType)
  | operation (m : Operation)
  | actorType (m : ActorType)
  | errorCode (m : ErrorCode)
  | logLevel (m : LogLevel)
  | logFormat (m : LogFormat)
deriving Repr, DecidableEq

namespace Vocabulary

/-- All vocabularies. -/
def all : List Vocabulary := [valueType, operation, actorType, errorCode, logLevel, logFormat]

/-- The name of a vocabulary. -/
def name : Vocabulary → String
  | valueType => "ValueType"
  | operation => "Operation"
  | actorType => "ActorType"
  | errorCode => "ErrorCode"
  | logLevel => "LogLevel"
  | logFormat => "LogFormat"

/-- The vocabulary with a name. -/
def ofName? (s : String) : Option Vocabulary :=
  all.find? (·.name = s)

/-- The members of a vocabulary in their order. -/
def members : Vocabulary → List Member
  | valueType => ValueType.all.map .valueType
  | operation => Operation.all.map .operation
  | actorType => ActorType.all.map .actorType
  | errorCode => ErrorCode.all.map .errorCode
  | logLevel => LogLevel.all.map .logLevel
  | logFormat => LogFormat.all.map .logFormat

end Vocabulary

namespace Member

/-- The vocabulary of a member. -/
def vocabulary : Member → Vocabulary
  | valueType _ => .valueType
  | operation _ => .operation
  | actorType _ => .actorType
  | errorCode _ => .errorCode
  | logLevel _ => .logLevel
  | logFormat _ => .logFormat

/-- The name of a member. -/
def name : Member → String
  | valueType m => m.name
  | operation m => m.name
  | actorType m => m.name
  | errorCode m => m.token
  | logLevel m => m.token
  | logFormat m => m.name

/-- The token of a member. -/
def token : Member → String
  | valueType m => m.token
  | operation m => m.token
  | actorType m => m.token
  | errorCode m => m.token
  | logLevel m => m.token
  | logFormat m => m.token

/-- Members of the logging vocabularies are texts: they equal their tokens and are taken for
them. -/
def isText : Member → Bool
  | logLevel _ => true
  | logFormat _ => true
  | _ => false

/-- The member with its vocabulary, as in `Operation.READ`. -/
def fullName (m : Member) : String :=
  m.vocabulary.name ++ "." ++ m.name

/-- The member with its vocabulary and token, as in `<Operation.READ: 'read'>`. -/
def display (m : Member) : String :=
  "<" ++ m.fullName ++ ": '" ++ m.token ++ "'>"

end Member

end CredentialWrites
