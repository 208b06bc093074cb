import Mathlib.Logic.Function.Basic
import P2PFileTransfer.Core.Protocol
import P2PFileTransfer.Foundation.Base64
import P2PFileTransfer.Foundation.Blocks
import P2PFileTransfer.Foundation.TextSearch

/-!
# The identity files

The private key and the certificate are kept as PEM texts.  The reader looks for the header
and for the footer, each from the beginning of the text, and takes what is between them.
The two files are written one after the other, each emptied first.
-/

namespace P2PFileTransfer.Core.IdentityFiles

open P2PFileTransfer.Foundation.Base64 (Engine)
open P2PFileTransfer.Foundation.Blocks
open P2PFileTransfer.Foundation.ByteFile
open P2PFileTransfer.Foundation.TextSearch
open P2PFileTransfer.Foundation.Utf8
open P2PFileTransfer.Core.Protocol (Error Fingerprint)

/-- A slice that is none panics. -/
inductive Outcome (α : Type) where
  | ok (value : α)
  | failed (error : Error)
  | panicked

def Outcome.bind {α β : Type} (outcome : Outcome α) (next : α → Outcome β) : Outcome β :=
  match outcome with
  | .ok value => next value
  | .failed error => .failed error
  | .panicked => .panicked

def dashes : Text := List.replicate 5 '-'

def header (label : Text) : Text :=
  dashes ++ (['B', 'E', 'G', 'I', 'N', ' '] ++ (label ++ dashes))

def footer (label : Text) : Text := dashes ++ (['E', 'N', 'D', ' '] ++ (label ++ dashes))

def pemToDer (engine : Engine) (pem label : Text) : Outcome Bytes :=
  match find (header label) pem with
  | none => .failed (.tls [.text "PEM missing ", .text (String.ofList label), .text " header"])
  | some position =>
      let start := position + utf8Len (header label)
      match find (footer label) pem with
      | none => .failed (.tls [.text "PEM missing ", .text (String.ofList label), .text " footer"])
      | some stop =>
          match range pem start stop with
          | none => .panicked
          | some inner =>
              match engine.decode (inner.filter fun char => !isWhitespace char) with
              | .ok der => .ok der
              | .error detail =>
                  .failed (.tls [.text "PEM base64 decode: ", .text (String.ofList detail)])

/-- The symbols in lines of 64 columns. -/
def wrapped (symbols : Text) : Text := (chunks 64 symbols).flatMap fun line => line ++ ['\n']

def derToPem (engine : Engine) (der : Bytes) (label : Text) : Text :=
  header label ++ ('\n' :: wrapped (engine.encode der) ++ (footer label ++ ['\n']))

/-! ## Loading and generating -/

/-- The library that makes key pairs and certificates.  A certificate belongs to the keys
with the public key it was made for. -/
structure Rcgen where
  KeyPair : Type
  PublicKey : Type
  publicKey : KeyPair → PublicKey
  serializeDer : KeyPair → Bytes
  selfSigned : KeyPair → Bytes
  Belongs : Bytes → Bytes → Prop
  belongs_iff : ∀ key other,
    Belongs (selfSigned key) (serializeDer other) ↔ publicKey key = publicKey other

structure Identity where
  certDer : Bytes
  keyDer : Bytes
  fingerprint : Fingerprint

inductive File where
  | key
  | cert
  deriving DecidableEq, Repr

/-- The two files; all that is ever written to them is ASCII. -/
abbrev Disk := File → Option Text

inductive Write where
  | openFile (file : File)
  | append (file : File) (char : Char)

/-- Opening truncates. -/
def Disk.apply (disk : Disk) : Write → Disk
  | .openFile file => Function.update disk file (some [])
  | .append file char => Function.update disk file ((disk file).map fun text => text ++ [char])

/-- `write_restricted` and `std::fs::write`, as far as the content goes. -/
def writeFile (file : File) (text : Text) : List Write :=
  .openFile file :: text.map (.append file)

section

variable (engine : Engine) (rcgen : Rcgen) (fingerprintOf : Bytes → Fingerprint)

def privateKey : Text := ['P', 'R', 'I', 'V', 'A', 'T', 'E', ' ', 'K', 'E', 'Y']

def certificate : Text := ['C', 'E', 'R', 'T', 'I', 'F', 'I', 'C', 'A', 'T', 'E']

def Identity.fromKeyPair (keyPair : rcgen.KeyPair) : Identity where
  certDer := rcgen.selfSigned keyPair
  keyDer := rcgen.serializeDer keyPair
  fingerprint := fingerprintOf (rcgen.selfSigned keyPair)

def Identity.load (keyPem certPem : Text) : Outcome Identity :=
  (pemToDer engine keyPem privateKey).bind fun keyDer =>
    (pemToDer engine certPem certificate).bind fun certDer =>
      .ok ⟨certDer, keyDer, fingerprintOf certDer⟩

/-- What `persist` does to the disk, one write after the other. -/
def Identity.persist (identity : Identity) : List Write :=
  writeFile .key (derToPem engine identity.keyDer privateKey) ++
    writeFile .cert (derToPem engine identity.certDer certificate)

/-- The writes of `load_or_generate` and what it returns after the last of them, if it has
to generate with `keyPair`. -/
def Identity.loadOrGenerate (disk : Disk) (keyPair : rcgen.KeyPair) :
    List Write × Outcome Identity :=
  match disk .key, disk .cert with
  | some keyPem, some certPem => ([], Identity.load engine fingerprintOf keyPem certPem)
  | _, _ =>
      let identity := Identity.fromKeyPair rcgen fingerprintOf keyPair
      (identity.persist engine, .ok identity)

end

end P2PFileTransfer.Core.IdentityFiles
