import Signatory.ApproveList.Addresses
import Signatory.ApproveList.Server
import Signatory.Auth
import Signatory.Crypto.Accepted
import Signatory.Crypto.Kwp
import Signatory.Cryptoutils.Cryptobyte
import Signatory.Cryptoutils.Elliptic
import Signatory.Cryptoutils.Pkcs
import Signatory.Cryptoutils.Rfc5915
import Signatory.Cryptoutils.X509
import Signatory.Hashmap
import Signatory.Lib.Aes
import Signatory.Lib.Ascii
import Signatory.Lib.Base64
import Signatory.Lib.BigEndian
import Signatory.Lib.Bounds
import Signatory.Lib.Command
import Signatory.Lib.Decimal
import Signatory.Lib.Der
import Signatory.Lib.Dialogue
import Signatory.Lib.Escape
import Signatory.Lib.Fallible
import Signatory.Lib.Fragments
import Signatory.Lib.Framing
import Signatory.Lib.Int32
import Signatory.Lib.Listing
import Signatory.Lib.Machine
import Signatory.Lib.Masks
import Signatory.Lib.Pem
import Signatory.Lib.Rounds
import Signatory.Lib.Shares
import Signatory.Lib.Split
import Signatory.Lib.Threads
import Signatory.Lib.Versioned
import Signatory.Middlewares.Jwt
import Signatory.Middlewares.Rotation
import Signatory.RecoveryTool.Rewrap
import Signatory.RecoveryTool.Unwrap
import Signatory.Request
import Signatory.Server
import Signatory.Server.Handlers
import Signatory.Server.Instances
import Signatory.Server.Requests
import Signatory.Server.Restarts
import Signatory.Signer.Concurrent
import Signatory.Signer.FullyDecoded
import Signatory.Signer.HookSessions
import Signatory.Signer.Keys
import Signatory.Signer.LookupOrder
import Signatory.Signer.Mediation
import Signatory.Signer.Policy
import Signatory.Signer.PolicyHook
import Signatory.Signer.PolicyMeaning
import Signatory.Signer.Run
import Signatory.Signer.Sign
import Signatory.Signer.SignsOnce
import Signatory.Signer.Suggestion
import Signatory.Utils.Misread
import Signatory.Utils.ParseMap
import Signatory.Utils.Quoting
import Signatory.Utils.Runes
import Signatory.Vault.AwsKms
import Signatory.Vault.Azure.Exponent
import Signatory.Vault.Azure.Jwk
import Signatory.Vault.Azure.Listing
import Signatory.Vault.CloudKms.Import
import Signatory.Vault.CloudKms.Listing
import Signatory.Vault.CloudKms.Sign
import Signatory.Vault.CloudKms.Wrap
import Signatory.Vault.Enclave
import Signatory.Vault.HalfImports
import Signatory.Vault.Handles
import Signatory.Vault.Hashicorp
import Signatory.Vault.Ledger.App
import Signatory.Vault.Ledger.Bip32
import Signatory.Vault.Ledger.Callers
import Signatory.Vault.Ledger.KeyId
import Signatory.Vault.Ledger.Operations
import Signatory.Vault.Ledger.PathApdus
import Signatory.Vault.Ledger.PublicKey
import Signatory.Vault.Ledger.Safety
import Signatory.Vault.Ledger.Scanner
import Signatory.Vault.Ledger.Transports
import Signatory.Vault.Ledger.Usbhid
import Signatory.Vault.Ledger.Worker
import Signatory.Vault.Memory
import Signatory.Vault.Nitro.Proxy
import Signatory.Vault.Nitro.Restart
import Signatory.Vault.Pages
import Signatory.Vault.Rpc.Client
import Signatory.Vault.Rpc.Connections
import Signatory.Vault.Rpc.Pairing
import Signatory.Vault.Storage
import Signatory.Vault.Yubi
import Signatory.Watermark.Agreement
import Signatory.Watermark.Attempts
import Signatory.Watermark.Aws
import Signatory.Watermark.Disk
import Signatory.Watermark.DoubleSign
import Signatory.Watermark.Durable
import Signatory.Watermark.File
import Signatory.Watermark.Gcp
import Signatory.Watermark.Legacy
import Signatory.Watermark.Linearize
import Signatory.Watermark.Mem
import Signatory.Watermark.Migrate
import Signatory.Watermark.MigratedV0
import Signatory.Watermark.MigratedV1
import Signatory.Watermark.NeverForgets
