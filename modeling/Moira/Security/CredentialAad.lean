import Moira.Keyring.Envelope
import Moira.Lib.Split
import Moira.Lib.Text

/-!
# The scope of a stored credential
-/

namespace Moira.Credential

open Keyring (RawUuid Aead DataKey)

/-! ## External ids -/

/-- `char::is_control` -/
def isControl (c : Char) : Bool :=
  c.toNat < 32 || (127 ≤ c.toNat && c.toNat ≤ 159)

def maxExternalIdLen : Nat := 256

/-- `validate_opaque_id` with the bound of `ExternalTenantId` and of `ExternalUserId`. -/
def validateOpaqueId (label : String) (value : List Char) : Except String Unit :=
  if value.isEmpty then .error (label ++ " must not be empty")
  else if Text.byteLen value > maxExternalIdLen then .error (label ++ " must be at most 256 characters")
  else if value.any isControl then .error (label ++ " must not contain control characters")
  else .ok ()

abbrev ExternalTenantId.parse (value : List Char) : Except String Unit :=
  validateOpaqueId "external_tenant_id" value

abbrev ExternalUserId.parse (value : List Char) : Except String Unit :=
  validateOpaqueId "external_user_id" value

/-! ## The bound text -/

inductive CredentialType
  | apiKey
  | oauth2
  | bearerToken
  | basicAuth
  | customHeaders
  | azureOpenAi
  | serviceAccount

/-- `credential_type_to_db` -/
def CredentialType.toDb : CredentialType → String
  | apiKey => "api_key"
  | oauth2 => "oauth2"
  | bearerToken => "bearer_token"
  | basicAuth => "basic_auth"
  | customHeaders => "custom_headers"
  | azureOpenAi => "azure_openai"
  | serviceAccount => "service_account"

inductive ScopeType
  | global
  | tenant
  | application
  | user

/-- `scope_type_to_db` -/
def ScopeType.toDb : ScopeType → String
  | global => "global"
  | tenant => "tenant"
  | application => "application"
  | user => "user"

@[ext] structure CredentialAadParts where
  credentialId : RawUuid
  providerId : RawUuid
  credentialType : List Char
  scopeType : List Char
  externalTenantId : Option (List Char)
  applicationId : Option RawUuid
  externalUserId : Option (List Char)
  encryptionVersion : Int

def uuidText (id : RawUuid) : List Char := Bytes.uuidText id.bytes

/-- The text that a credential is bound to. -/
def credentialAad (parts : CredentialAadParts) : List Char :=
  "credential_id=".toList ++ uuidText parts.credentialId ++
  ";provider_id=".toList ++ uuidText parts.providerId ++
  ";credential_type=".toList ++ parts.credentialType ++
  ";scope_type=".toList ++ parts.scopeType ++
  ";external_tenant_id=".toList ++ parts.externalTenantId.getD [] ++
  ";application_id=".toList ++ ((parts.applicationId.map uuidText).getD []) ++
  ";external_user_id=".toList ++ parts.externalUserId.getD [] ++
  ";encryption_version=".toList ++ (toString parts.encryptionVersion).toList

/-! ## The envelope -/

def localAes256Gcm : String := "AES-256-GCM"

def envelopeVersionV1 : Int := 1

structure EncryptedSecret where
  algorithm : String
  version : Int
  nonce : FixedBytes 12
  ciphertext : Bytes

def aadBytes (parts : CredentialAadParts) : Bytes :=
  (String.ofList (credentialAad parts)).toUTF8.data.toList

variable (A : Aead) (key : DataKey)

/-- With the nonce that is drawn. -/
def encrypt (nonce : FixedBytes 12) (plaintext : Bytes) (parts : CredentialAadParts) : EncryptedSecret where
  algorithm := localAes256Gcm
  version := envelopeVersionV1
  nonce := nonce
  ciphertext := A.encrypt key nonce (aadBytes parts) plaintext

/-- `decrypt`: nothing of an envelope of another kind, or where the tag does not match. -/
def decrypt (secret : EncryptedSecret) (parts : CredentialAadParts) : Option Bytes :=
  if secret.algorithm ≠ localAes256Gcm ∨ secret.version ≠ envelopeVersionV1 then none
  else A.decrypt key secret.nonce (aadBytes parts) secret.ciphertext

end Moira.Credential
