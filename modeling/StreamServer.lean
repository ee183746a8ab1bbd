import StreamServer.Document.Json
import StreamServer.Document.Toml
import StreamServer.Fault
import StreamServer.Number.Binary64
import StreamServer.Settings.Source
import StreamServer.Text.Quoted
import StreamServer.Text.Utf8
import StreamServer.Transport.Script
import StreamServer.Connection.Service
import StreamServer.Sink
import StreamServer.Session
import StreamServer.Clients
import StreamServer.Log.Filter
import StreamServer.Main
import StreamServer.Proofs.Transfer
import StreamServer.Proofs.Delivery
import StreamServer.Proofs.Echo
import StreamServer.Proofs.LineRun
import StreamServer.Proofs.EventLog
import StreamServer.Proofs.LineHandles
import StreamServer.Proofs.Handles
import StreamServer.Proofs.Lifecycle
import StreamServer.Proofs.Conditions
import StreamServer.Proofs.Capacity
import StreamServer.Proofs.Overrides
import StreamServer.Proofs.ServerSteps
import StreamServer.Proofs.Register
import StreamServer.Proofs.Permits
import StreamServer.Proofs.Roster
import StreamServer.Proofs.ServerRun
import StreamServer.Proofs.ServiceRun
import StreamServer.Proofs.Drain
import StreamServer.Proofs.Conservation
import StreamServer.Proofs.Signals
import StreamServer.Proofs.Independence
import StreamServer.Proofs.Reading
import StreamServer.Proofs.SinkChoice
import StreamServer.Proofs.FirstAnswer
import StreamServer.Proofs.Encoding
import StreamServer.Proofs.ReaderSteps
import StreamServer.Proofs.JsonText
import StreamServer.Proofs.LineLog
import StreamServer.Proofs.LineDecoding
import StreamServer.Proofs.TornLines
import StreamServer.Proofs.Attempts
import StreamServer.Proofs.FirstFill
import StreamServer.Proofs.Secrecy
import StreamServer.Proofs.SinkTree
import StreamServer.Proofs.Counting
import StreamServer.Proofs.Totals
import StreamServer.Proofs.SettingsRoundTrip
import StreamServer.Proofs.SettingsFields
import StreamServer.Proofs.SettingsOrder
import StreamServer.Proofs.SettingsPositions
import StreamServer.Proofs.SettingsReaders
import StreamServer.Proofs.AddressGrammar
import StreamServer.Proofs.LoadedSettings
import StreamServer.Proofs.QuotedMessages
import StreamServer.Proofs.Preview
