import CredentialWrites.Json.Reader
import CredentialWrites.Script.Session
import CredentialWrites.Proofs.Permission.Run
import CredentialWrites.Proofs.Trace
import CredentialWrites.Number.Reading
import CredentialWrites.Proofs.Actor.Identity
import CredentialWrites.Proofs.Request.Run
import CredentialWrites.Proofs.Value.Document
import CredentialWrites.Proofs.Payload.Model
import CredentialWrites.Proofs.Payload.Dump
import CredentialWrites.Proofs.Payload.Fidelity
import CredentialWrites.Proofs.Value.Uncopyable
import CredentialWrites.Proofs.Payload.Text
import CredentialWrites.Proofs.Request.ReadOnly
import CredentialWrites.Proofs.Request.Secrecy
import CredentialWrites.Proofs.Request.Isolated
import CredentialWrites.Proofs.Actor.Grammar
import CredentialWrites.Proofs.Request.Equality
import CredentialWrites.Proofs.Request.Hashing
import CredentialWrites.Proofs.Log.Redaction
import CredentialWrites.Proofs.Log.Line
import CredentialWrites.Proofs.Log.Strict
import CredentialWrites.Proofs.Request.Names
import CredentialWrites.Proofs.Script.Configure
import CredentialWrites.Proofs.Script.Settings
import CredentialWrites.Proofs.Value.Canonical
import CredentialWrites.Proofs.Value.Positions
import CredentialWrites.Proofs.Permission.Refusals
import CredentialWrites.Proofs.Payload.Reread
import CredentialWrites.Proofs.Request.Trail
import CredentialWrites.Proofs.CredentialName
import CredentialWrites.Proofs.Permission.Tokens
import CredentialWrites.Proofs.Log.Names
