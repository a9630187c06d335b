import MultipleCiphers.Lib.Transition
import MultipleCiphers.Lib.Bytes
import MultipleCiphers.Connection
import MultipleCiphers.Primitives
import MultipleCiphers.Codec
import MultipleCiphers.Lib.BlockCipher
import MultipleCiphers.Ciphers.Common
import MultipleCiphers.Ciphers.Unsalted
import MultipleCiphers.Ciphers.Salted
import MultipleCiphers.Ciphers.Aegis
import MultipleCiphers.Ciphers.Builtin
import MultipleCiphers.Vfs.File
import MultipleCiphers.Vfs.ReadErrors
import MultipleCiphers.Vfs.WriteMainDb
import MultipleCiphers.Vfs.Stack
import MultipleCiphers.Journal.RoundTrip
import MultipleCiphers.Ciphers.AegisKey
import MultipleCiphers.Storage
import MultipleCiphers.Rekey.Model
import MultipleCiphers.Rekey.CodecState
import MultipleCiphers.Key.Model
import MultipleCiphers.Key.OpenWithKey
import MultipleCiphers.Key.Backup
import MultipleCiphers.Key.SaltedKeys
import MultipleCiphers.Vfs.Authentication
import MultipleCiphers.Journal.SubJournal
import MultipleCiphers.Journal.Playback
import MultipleCiphers.Wal.RoundTrip
import MultipleCiphers.Wal.Legacy
import MultipleCiphers.Ciphers.PageRoundTrip
import MultipleCiphers.Vle.Decrypt
import MultipleCiphers.Config.Lookup
import MultipleCiphers.Ownership.Runs
import MultipleCiphers.Ciphers.AesPages
import MultipleCiphers.Ciphers.Authenticity
import MultipleCiphers.Ciphers.RawKey
import MultipleCiphers.Vfs.PartialRead
import MultipleCiphers.Ciphers.PageInPlace
import MultipleCiphers.Config.SqlAgreement
import MultipleCiphers.Key.AttachCopy
import MultipleCiphers.Key.Hexkey
import MultipleCiphers.Ciphers.AsconPbkdf2
import MultipleCiphers.Key.Iterations
import MultipleCiphers.Ciphers.InitialVector
import MultipleCiphers.Ciphers.KeyStream
import MultipleCiphers.Lib.LinkedList
import MultipleCiphers.Vfs.MainList
import MultipleCiphers.Vfs.Opening
import MultipleCiphers.Vle.Options
import MultipleCiphers.Vle.Key
import MultipleCiphers.Vfs.PagerError
import MultipleCiphers.Lib.ArrayMemory
import MultipleCiphers.Config.Isolation
import MultipleCiphers.Lib.Words
import MultipleCiphers.Algorithms.Poly1305
import MultipleCiphers.Algorithms.ChaCha20
import MultipleCiphers.Algorithms.Random
import MultipleCiphers.Lib.BlockHash
import MultipleCiphers.Algorithms.Sha2
import MultipleCiphers.Algorithms.Sha1
import MultipleCiphers.Algorithms.Md5
import MultipleCiphers.Algorithms.Hmac
import MultipleCiphers.Lib.KeyAlternating
import MultipleCiphers.Algorithms.AesTables
import MultipleCiphers.Algorithms.AesStandard
import MultipleCiphers.Algorithms.Aes
import MultipleCiphers.Algorithms.AesKeySchedule
import MultipleCiphers.Algorithms.AesInstructions
