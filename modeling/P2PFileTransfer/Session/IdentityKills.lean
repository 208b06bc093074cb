import P2PFileTransfer.Session.PemText

/-!
# What kills leave of an identity

The key file and the certificate file are each a beginning of a text that some run wrote,
but not always of the same run: a certificate may outlive its key.  The next run takes the
two as they are whenever both exist.
-/

namespace P2PFileTransfer.Session.IdentityKills

open P2PFileTransfer.Foundation.Base64 (Engine standard)
open P2PFileTransfer.Foundation.ByteFile
open P2PFileTransfer.Foundation.TextSearch
open P2PFileTransfer.Foundation.Utf8
open P2PFileTransfer.Core.IdentityFiles
open P2PFileTransfer.Core.Protocol (Fingerprint FixedBytes FixedBytes.filled)
open P2PFileTransfer.Session.PemText

def Disk.applyAll (disk : Disk) (writes : List Write) : Disk := writes.foldl Disk.apply disk

/-- A run ends after so many of its writes, killed or at its end. -/
inductive Event (rcgen : Rcgen) where
  | run (keyPair : rcgen.KeyPair) (writes : Nat)
  | delete (file : File)

section

variable (engine : Engine) (rcgen : Rcgen) (fingerprintOf : Bytes → Fingerprint)

def step (disk : Disk) : Event rcgen → Disk
  | .run keyPair writes =>
      Disk.applyAll disk
        ((Identity.loadOrGenerate engine rcgen fingerprintOf disk keyPair).1.take writes)
  | .delete file => Function.update disk file none

/-- What any runs and deletions leave, beginning with no files. -/
def leftBy (events : List (Event rcgen)) : Disk :=
  events.foldl (step engine rcgen fingerprintOf) fun _ => none

/-- The disk after a run that is not killed. -/
def afterRun (disk : Disk) (keyPair : rcgen.KeyPair) : Disk :=
  Disk.applyAll disk (Identity.loadOrGenerate engine rcgen fingerprintOf disk keyPair).1

/-- The next run returns keys with their certificate, and the one after it the same
fingerprint. -/
def Survives (disk : Disk) : Prop :=
  ∀ keyPair, ∃ identity,
    (Identity.loadOrGenerate engine rcgen fingerprintOf disk keyPair).2 = .ok identity ∧
    rcgen.Belongs identity.certDer identity.keyDer ∧
    ∀ other, ∃ later, (Identity.loadOrGenerate engine rcgen fingerprintOf
      (afterRun engine rcgen fingerprintOf disk keyPair) other).2 = .ok later ∧
      later.fingerprint = identity.fingerprint

/-- What is written to a file for a key pair. -/
def pemOf (keyPair : rcgen.KeyPair) : File → Text
  | .key => derToPem engine (rcgen.serializeDer keyPair) privateKey
  | .cert => derToPem engine (rcgen.selfSigned keyPair) certificate

/-- The whole text, perhaps without the newline at its end. -/
def Whole (pem text : Text) : Prop := text = pem ∨ text ++ ['\n'] = pem

/-- If both files are there, they are whole and of the same keys. -/
def Matching (disk : Disk) : Prop :=
  ∀ keyPem certPem, disk .key = some keyPem → disk .cert = some certPem →
    ∃ keyPair other, Whole (pemOf engine rcgen keyPair .key) keyPem ∧
      Whole (pemOf engine rcgen other .cert) certPem ∧
      rcgen.publicKey other = rcgen.publicKey keyPair

/-- Each file is a beginning of what some run wrote to it. -/
def Written (disk : Disk) : Prop :=
  ∀ file text, disk file = some text → ∃ keyPair, text <+: pemOf engine rcgen keyPair file

end

variable {engine : Engine} {rcgen : Rcgen} {fingerprintOf : Bytes → Fingerprint} {disk : Disk}
  {file : File} {label text pem front : Text} {der : Bytes} {keyPair : rcgen.KeyPair}

/-! ## The writes of a run -/

theorem applyAll_append (disk : Disk) (first second : List Write) :
    Disk.applyAll disk (first ++ second) = Disk.applyAll (Disk.applyAll disk first) second :=
  List.foldl_append

theorem applyAll_appends (text : Text) (hfront : disk file = some front) :
    Disk.applyAll disk (text.map (.append file)) =
      Function.update disk file (some (front ++ text)) := by
  induction text generalizing disk front with
  | nil =>
      rw [List.append_nil, ← hfront, Function.update_eq_self]
      rfl
  | cons char rest ih =>
      have hstep : disk.apply (.append file char) =
          Function.update disk file (some (front ++ [char])) := by
        rw [Disk.apply, hfront]
        rfl
      have hnext : disk.apply (.append file char) file = some (front ++ [char]) := by
        rw [hstep, Function.update_self]
      have hrest := ih hnext
      rw [List.append_assoc, hstep, Function.update_idem] at hrest
      rw [List.map_cons]
      change Disk.applyAll (disk.apply (.append file char)) _ = _
      rw [hstep]
      exact hrest

/-- Opening a file and writing a text to it. -/
theorem applyAll_writeFile (text : Text) (disk : Disk) (file : File) :
    Disk.applyAll disk (writeFile file text) = Function.update disk file (some text) := by
  have hopened : disk.apply (.openFile file) file = some [] := Function.update_self ..
  have hrest := applyAll_appends text hopened
  rw [List.nil_append] at hrest
  change Disk.applyAll (disk.apply (.openFile file)) _ = _
  rw [hrest]
  exact Function.update_idem ..

/-- Killed while a file is written, or before that. -/
theorem applyAll_writeFile_take (text : Text) (disk : Disk) (file : File) (count : Nat) :
    Disk.applyAll disk ((writeFile file text).take count) = disk ∨
      ∃ front, front <+: text ∧ Disk.applyAll disk ((writeFile file text).take count) =
        Function.update disk file (some front) := by
  cases count with
  | zero => exact Or.inl rfl
  | succ count =>
      refine Or.inr ⟨text.take count, List.take_prefix count text, ?_⟩
      rw [writeFile, List.take_succ_cons, ← List.map_take]
      exact applyAll_writeFile (text.take count) disk file

theorem loadOrGenerate_load {keyPem certPem : Text} (hkey : disk .key = some keyPem)
    (hcert : disk .cert = some certPem) :
    Identity.loadOrGenerate engine rcgen fingerprintOf disk keyPair =
      ([], Identity.load engine fingerprintOf keyPem certPem) := by
  rw [Identity.loadOrGenerate, hkey, hcert]

theorem loadOrGenerate_generate (hmissing : disk .key = none ∨ disk .cert = none) :
    Identity.loadOrGenerate engine rcgen fingerprintOf disk keyPair =
      (writeFile .key (pemOf engine rcgen keyPair .key) ++
        writeFile .cert (pemOf engine rcgen keyPair .cert),
        .ok (Identity.fromKeyPair rcgen fingerprintOf keyPair)) := by
  rw [Identity.loadOrGenerate]
  split
  · rename_i hkey hcert
    rcases hmissing with hnone | hnone
    · rw [hkey] at hnone
      cases hnone
    · rw [hcert] at hnone
      cases hnone
  · rfl

/-! ## The files after runs -/

theorem Written.update (hwritten : Written engine rcgen disk)
    (hstart : text <+: pemOf engine rcgen keyPair file) :
    Written engine rcgen (Function.update disk file (some text)) := by
  intro other content hcontent
  by_cases hother : other = file
  · subst hother
    rw [Function.update_self] at hcontent
    exact ⟨keyPair, Option.some.inj hcontent ▸ hstart⟩
  · rw [Function.update_of_ne hother] at hcontent
    exact hwritten other content hcontent

theorem Written.writeFile_take (hwritten : Written engine rcgen disk) (keyPair : rcgen.KeyPair)
    (file : File) (count : Nat) :
    Written engine rcgen
      (Disk.applyAll disk ((writeFile file (pemOf engine rcgen keyPair file)).take count)) := by
  rcases applyAll_writeFile_take (pemOf engine rcgen keyPair file) disk file count with
    hsame | ⟨front, hstart, hdisk⟩
  · rw [hsame]
    exact hwritten
  · rw [hdisk]
    exact hwritten.update hstart

theorem Written.step (hwritten : Written engine rcgen disk) (event : Event rcgen) :
    Written engine rcgen (step engine rcgen fingerprintOf disk event) := by
  cases event with
  | run keyPair writes =>
      by_cases hmissing : disk .key = none ∨ disk .cert = none
      · rw [IdentityKills.step, loadOrGenerate_generate hmissing]
        dsimp only
        rw [List.take_append, applyAll_append]
        exact (hwritten.writeFile_take keyPair .key _).writeFile_take keyPair .cert _
      · rw [not_or] at hmissing
        obtain ⟨keyPem, hkey⟩ := Option.ne_none_iff_exists'.mp hmissing.1
        obtain ⟨certPem, hcert⟩ := Option.ne_none_iff_exists'.mp hmissing.2
        rw [IdentityKills.step, loadOrGenerate_load hkey hcert, List.take_nil]
        exact hwritten
  | delete file =>
      intro other content hcontent
      by_cases hother : other = file
      · subst hother
        rw [IdentityKills.step, Function.update_self] at hcontent
        cases hcontent
      · rw [IdentityKills.step, Function.update_of_ne hother] at hcontent
        exact hwritten other content hcontent

/-- The files after any runs, killed or not. -/
theorem written_leftBy (events : List (Event rcgen)) :
    Written engine rcgen (leftBy engine rcgen fingerprintOf events) := by
  have hrun : ∀ disk, Written engine rcgen disk →
      Written engine rcgen (events.foldl (step engine rcgen fingerprintOf) disk) := by
    induction events with
    | nil => exact fun _ hwritten => hwritten
    | cons event rest ih => exact fun _ hwritten => ih _ (hwritten.step event)
  exact hrun _ fun _ _ hnone => nomatch hnone

/-! ## What the next run reads -/

theorem Whole.prefix (hwhole : Whole pem text) : text <+: pem := by
  rcases hwhole with rfl | rfl
  · exact List.prefix_rfl
  · exact List.prefix_append text _

theorem whole_iff :
    Whole (derToPem engine der label) text ↔
      ∃ rest, (rest = [] ∨ rest = ['\n']) ∧ text =
        header label ++ ('\n' :: wrapped (engine.encode der) ++ (footer label ++ rest)) := by
  have hpem : derToPem engine der label =
      header label ++ ('\n' :: wrapped (engine.encode der) ++ (footer label ++ [])) ++ ['\n'] := by
    simp [derToPem]
  constructor
  · rintro (hsame | hshort)
    · exact ⟨['\n'], Or.inr rfl, hsame⟩
    · rw [hpem] at hshort
      exact ⟨[], Or.inl rfl, List.append_cancel_right hshort⟩
  · rintro ⟨rest, rfl | rfl, rfl⟩
    · exact Or.inr hpem.symm
    · exact Or.inl rfl

/-- A beginning of a written text is read exactly when it is whole. -/
theorem pemToDer_eq_ok_iff {read : Bytes} (hlabel : '-' ∉ label)
    (hstart : text <+: derToPem engine der label) :
    pemToDer engine text label = .ok read ↔
      Whole (derToPem engine der label) text ∧ read = der := by
  have hread : Whole (derToPem engine der label) text → pemToDer engine text label = .ok der := by
    intro hwhole
    obtain ⟨rest, _, rfl⟩ := whole_iff.mp hwhole
    exact pemToDer_written engine hlabel der rest
  constructor
  · intro hok
    obtain ⟨_, back, _, hback⟩ := markers_of_ok hok
    have hinner := dash_notMem_wrapped (engine.encode der) (engine.alphabet der)
    have hlength := length_le_of_find (find_footer hlabel hinner ['\n'])
      ⟨footer label ++ ['\n'], by simp⟩ (hback.occurs.trans hstart)
    have hfits := hback.occurs.length_le
    obtain ⟨rest, hrest⟩ := hstart
    have htotal := congrArg List.length hrest
    simp only [derToPem, List.length_append, List.length_cons, List.length_nil] at hlength hfits htotal
    have hwhole : Whole (derToPem engine der label) text := by
      match rest, hrest with
      | [], hrest =>
          rw [List.append_nil] at hrest
          exact Or.inl hrest
      | [char], hrest =>
          have hlast := hrest
          rw [derToPem, ← List.append_assoc, ← List.append_assoc] at hlast
          rw [(List.append_inj' hlast rfl).2] at hrest
          exact Or.inr hrest
      | _ :: _ :: _, hrest =>
          simp only [List.length_cons] at htotal
          omega
    rw [hread hwhole] at hok
    cases hok
    exact ⟨hwhole, rfl⟩
  · rintro ⟨hwhole, rfl⟩
    exact hread hwhole

theorem not_dash_privateKey : '-' ∉ privateKey := by
  decide

theorem not_dash_certificate : '-' ∉ certificate := by
  decide

/-- Two files that are there are taken when both are whole. -/
theorem load_eq_ok_iff {keyPem certPem : Text} {other : rcgen.KeyPair} {identity : Identity}
    (hkey : keyPem <+: pemOf engine rcgen keyPair .key)
    (hcert : certPem <+: pemOf engine rcgen other .cert) :
    Identity.load engine fingerprintOf keyPem certPem = .ok identity ↔
      (Whole (pemOf engine rcgen keyPair .key) keyPem ∧
        Whole (pemOf engine rcgen other .cert) certPem) ∧
      identity = ⟨rcgen.selfSigned other, rcgen.serializeDer keyPair,
        fingerprintOf (rcgen.selfSigned other)⟩ := by
  constructor
  · intro hload
    rw [Identity.load] at hload
    cases hkeyDer : pemToDer engine keyPem privateKey with
    | failed error =>
        rw [hkeyDer] at hload
        cases hload
    | panicked =>
        rw [hkeyDer] at hload
        cases hload
    | ok keyDer =>
        cases hcertDer : pemToDer engine certPem certificate with
        | failed error =>
            rw [hkeyDer, hcertDer] at hload
            cases hload
        | panicked =>
            rw [hkeyDer, hcertDer] at hload
            cases hload
        | ok certDer =>
            rw [hkeyDer, hcertDer] at hload
            obtain ⟨hwholeKey, rfl⟩ := (pemToDer_eq_ok_iff not_dash_privateKey hkey).mp hkeyDer
            obtain ⟨hwholeCert, rfl⟩ := (pemToDer_eq_ok_iff not_dash_certificate hcert).mp hcertDer
            cases hload
            exact ⟨⟨hwholeKey, hwholeCert⟩, rfl⟩
  · rintro ⟨⟨hwholeKey, hwholeCert⟩, rfl⟩
    have hkeyDer := (pemToDer_eq_ok_iff not_dash_privateKey hkey).mpr ⟨hwholeKey, rfl⟩
    have hcertDer := (pemToDer_eq_ok_iff not_dash_certificate hcert).mpr ⟨hwholeCert, rfl⟩
    rw [Identity.load, hkeyDer, hcertDer]
    rfl

/-- After a run that has generated, the next one loads what it made. -/
theorem load_generated (keyPair : rcgen.KeyPair) :
    Identity.load engine fingerprintOf (pemOf engine rcgen keyPair .key)
      (pemOf engine rcgen keyPair .cert) = .ok (Identity.fromKeyPair rcgen fingerprintOf keyPair) :=
  (load_eq_ok_iff List.prefix_rfl List.prefix_rfl).mpr ⟨⟨Or.inl rfl, Or.inl rfl⟩, rfl⟩

theorem afterRun_generate (hmissing : disk .key = none ∨ disk .cert = none) :
    afterRun engine rcgen fingerprintOf disk keyPair .key = some (pemOf engine rcgen keyPair .key) ∧
      afterRun engine rcgen fingerprintOf disk keyPair .cert =
        some (pemOf engine rcgen keyPair .cert) := by
  rw [afterRun, loadOrGenerate_generate hmissing]
  dsimp only
  rw [applyAll_append, applyAll_writeFile, applyAll_writeFile]
  exact ⟨rfl, rfl⟩

/-- An identity survives exactly when the two files do not both exist, or match. -/
theorem survives_iff (events : List (Event rcgen)) :
    Survives engine rcgen fingerprintOf (leftBy engine rcgen fingerprintOf events) ↔
      Matching engine rcgen (leftBy engine rcgen fingerprintOf events) := by
  have hwritten := @written_leftBy engine rcgen fingerprintOf events
  generalize leftBy engine rcgen fingerprintOf events = disk at hwritten
  constructor
  · intro hsurvives keyPem certPem hkey hcert
    obtain ⟨keyPair, hkeyPrefix⟩ := hwritten .key keyPem hkey
    obtain ⟨other, hcertPrefix⟩ := hwritten .cert certPem hcert
    obtain ⟨identity, hok, hbelongs, _⟩ := hsurvives keyPair
    rw [loadOrGenerate_load hkey hcert] at hok
    obtain ⟨⟨hwholeKey, hwholeCert⟩, rfl⟩ := (load_eq_ok_iff hkeyPrefix hcertPrefix).mp hok
    exact ⟨keyPair, other, hwholeKey, hwholeCert, (rcgen.belongs_iff other keyPair).mp hbelongs⟩
  · intro hmatching keyPair
    by_cases hmissing : disk .key = none ∨ disk .cert = none
    · refine ⟨Identity.fromKeyPair rcgen fingerprintOf keyPair, ?_,
        (rcgen.belongs_iff keyPair keyPair).mpr rfl, fun other =>
          ⟨Identity.fromKeyPair rcgen fingerprintOf keyPair, ?_, rfl⟩⟩
      · rw [loadOrGenerate_generate hmissing]
      · obtain ⟨hkey, hcert⟩ := @afterRun_generate engine rcgen fingerprintOf disk keyPair hmissing
        rw [loadOrGenerate_load hkey hcert]
        exact load_generated keyPair
    · rw [not_or] at hmissing
      obtain ⟨keyPem, hkey⟩ := Option.ne_none_iff_exists'.mp hmissing.1
      obtain ⟨certPem, hcert⟩ := Option.ne_none_iff_exists'.mp hmissing.2
      obtain ⟨key, other, hwholeKey, hwholeCert, hsame⟩ := hmatching keyPem certPem hkey hcert
      have hload := (@load_eq_ok_iff engine rcgen fingerprintOf key keyPem certPem other _
        hwholeKey.prefix hwholeCert.prefix).mpr ⟨⟨hwholeKey, hwholeCert⟩, rfl⟩
      refine ⟨⟨rcgen.selfSigned other, rcgen.serializeDer key,
        fingerprintOf (rcgen.selfSigned other)⟩, ?_, (rcgen.belongs_iff other key).mpr hsame,
        fun later => ⟨⟨rcgen.selfSigned other, rcgen.serializeDer key,
          fingerprintOf (rcgen.selfSigned other)⟩, ?_, rfl⟩⟩
      · rw [loadOrGenerate_load hkey hcert]
        exact hload
      · rw [afterRun, loadOrGenerate_load hkey hcert]
        exact (congrArg Prod.snd (loadOrGenerate_load hkey hcert)).trans hload

/-! ## A run that is killed and a key that is lost -/

/-- Key pairs that are told apart by one byte. -/
def byteRcgen : Rcgen where
  KeyPair := UInt8
  PublicKey := UInt8
  publicKey := id
  serializeDer := fun keyPair => [48, keyPair]
  selfSigned := fun keyPair => [49, keyPair]
  Belongs := fun certDer keyDer => certDer.drop 1 = keyDer.drop 1
  belongs_iff := fun keyPair other => by simp

def byteEngine : Engine := standard fun _ => []

def byteFingerprint (certDer : Bytes) : Fingerprint := FixedBytes.filled 32 (certDer.getD 1 0)

def byteRun (keyPair : UInt8) (writes : Nat) : Event byteRcgen := .run keyPair writes

/-- The first run is killed when it has opened the certificate file. -/
def killed : List (Event byteRcgen) := [byteRun 1 61]

/-- The key is deleted, and the next run killed before it opens the certificate file. -/
def lostKey : List (Event byteRcgen) := [byteRun 1 1000, .delete .key, byteRun 2 60]

theorem survives_iff_nothing :
    Survives byteEngine byteRcgen byteFingerprint (leftBy byteEngine byteRcgen byteFingerprint []) := by
  refine (survives_iff []).mpr fun keyPem certPem hkey _ => ?_
  cases hkey

/-- After the first the next run fails; after the second it takes a certificate of other
keys. -/
theorem identity_lost :
    ¬Survives byteEngine byteRcgen byteFingerprint
        (leftBy byteEngine byteRcgen byteFingerprint killed) ∧
      ¬Survives byteEngine byteRcgen byteFingerprint
        (leftBy byteEngine byteRcgen byteFingerprint lostKey) := by
  constructor <;> intro hsurvives <;>
    obtain ⟨identity, hok, hbelongs, _⟩ := hsurvives (3 : UInt8)
  · have hkey : leftBy byteEngine byteRcgen byteFingerprint killed .key =
        some (pemOf byteEngine byteRcgen (1 : UInt8) .key) := by
      decide +kernel
    have hcert : leftBy byteEngine byteRcgen byteFingerprint killed .cert = some [] := by
      decide +kernel
    have hload := (congrArg Prod.snd (loadOrGenerate_load hkey hcert)).symm.trans hok
    obtain ⟨⟨_, hwhole⟩, _⟩ := (@load_eq_ok_iff byteEngine byteRcgen byteFingerprint (1 : UInt8) _ []
      (1 : UInt8) identity List.prefix_rfl List.nil_prefix).mp hload
    rcases hwhole with hempty | hnewline
    · cases hempty
    · cases hnewline
  · have hkey : leftBy byteEngine byteRcgen byteFingerprint lostKey .key =
        some (pemOf byteEngine byteRcgen (2 : UInt8) .key) := by
      decide +kernel
    have hcert : leftBy byteEngine byteRcgen byteFingerprint lostKey .cert =
        some (pemOf byteEngine byteRcgen (1 : UInt8) .cert) := by
      decide +kernel
    have hload := (congrArg Prod.snd (loadOrGenerate_load hkey hcert)).symm.trans hok
    obtain ⟨_, rfl⟩ := (@load_eq_ok_iff byteEngine byteRcgen byteFingerprint (2 : UInt8) _ _
      (1 : UInt8) identity List.prefix_rfl List.prefix_rfl).mp hload
    have hsame : (1 : UInt8) = 2 := (byteRcgen.belongs_iff (1 : UInt8) (2 : UInt8)).mp hbelongs
    exact absurd hsame (by decide)

end P2PFileTransfer.Session.IdentityKills
