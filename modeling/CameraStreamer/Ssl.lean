import CameraStreamer.Lib.Transfer

/-!
# What the programs see of OpenSSL

Both loops over a TLS connection, `sslReadAll` of the server and `sslWriteAll` of the client,
branch on `SSL_get_error` and `errno` after a call that moved nothing. Of OpenSSL the model keeps
what its documentation says of these results: a positive result `n` moves exactly the next `n`
bytes, an error moves none, and the errors that ask for the call to be repeated are `transient`.

`SslConn` is the receiving end of a connection: the bytes that arrive before it ends, cut up by
`SSL_read` in any way, with any finite number of transient errors in between.
-/

namespace CameraStreamer

open Lib.Transfer

/-- `SSL_get_error`; a system call error comes with `errno == EINTR`. -/
inductive SslError
  | wantRead
  | wantWrite
  | zeroReturn
  | syscall (eintr : Bool)
  | other
  deriving DecidableEq, Repr

/-- The call is to be repeated. -/
def SslError.transient : SslError → Bool
  | .wantRead => true
  | .wantWrite => true
  | .syscall eintr => eintr
  | _ => false

/-- The receiving end of a connection. -/
abbrev SslConn := Source SslError UInt8 SslError.transient

/-- A connection over which `stream` arrives before the peer closes it, one `SSL_read` taking as
much as it asks for. -/
def SslConn.closing (stream : List UInt8) : SslConn where
  script := []
  stream := stream
  ending := ⟨.zeroReturn, rfl⟩
  pos := 0

end CameraStreamer
