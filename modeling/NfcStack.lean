import NfcStack.Applets.Loop
import NfcStack.Framing.Bursts
import NfcStack.Framing.Encoding
import NfcStack.Hal.Nfct.Counters
import NfcStack.Hal.Nfct.Dispatch
import NfcStack.Hal.Nfct.Lifecycle
import NfcStack.Hal.Pn7160.Listen
import NfcStack.Protocols.Aliro.Codec
import NfcStack.Protocols.Aliro.SessionOrder
import NfcStack.Protocols.Classic.Authorisation
import NfcStack.Protocols.Classic.Codec
import NfcStack.Protocols.Classic.ReadBack
import NfcStack.Protocols.Desfire.AccessControl
import NfcStack.Protocols.Desfire.AppList
import NfcStack.Protocols.Desfire.Exchanges
import NfcStack.Protocols.Desfire.Termination
import NfcStack.Protocols.Desfire.Writes
import NfcStack.Protocols.Emv.ReadBack
import NfcStack.Protocols.Emv.RecordFields
import NfcStack.Protocols.Emv.RecordLoop
import NfcStack.Protocols.Emv.SessionOrder
import NfcStack.Protocols.Felica.Codec
import NfcStack.Protocols.Felica.Partial
import NfcStack.Protocols.Ndef.Exchanges
import NfcStack.Protocols.Ndef.WriteAccess
import NfcStack.Protocols.Slix.Codec
import NfcStack.Protocols.Slix.Privacy
import NfcStack.Protocols.Slix.ReadBack
import NfcStack.Protocols.Ultralight.ServedMessage
import NfcStack.Protocols.Ultralight.TdesBuffers
import NfcStack.Reader.ArrayBounds
import NfcStack.Reader.Detection
import NfcStack.Reader.Flight
import NfcStack.Reader.Rollback
import NfcStack.Router.Trace
import NfcStack.Stack.Answers
import NfcStack.Stack.LiveCommit
import NfcStack.Stack.NdefReadBack
import NfcStack.Store.HexImport
import NfcStack.Store.Ram
import NfcStack.Store.Validators
import NfcStack.Store.Walk
