import StaticHttp.Files.Change
import StaticHttp.Handling
import StaticHttp.Launch
import StaticHttp.Main
import StaticHttp.Metrics.Collectors
import StaticHttp.Metrics.Snapshot
import StaticHttp.Options.CommandLine
import StaticHttp.Pool.Run
import StaticHttp.Queue.Capacity
import StaticHttp.Queue.Exchange
import StaticHttp.Queue.Ownership
import StaticHttp.Server.Session
import StaticHttp.ServerError
import StaticHttp.Proofs.Queue.Contents
import StaticHttp.Proofs.Queue.Transition
import StaticHttp.Proofs.Queue.Order
import StaticHttp.Proofs.Queue.Closing
import StaticHttp.Proofs.Queue.WakeUps
import StaticHttp.Proofs.Handling
import StaticHttp.Proofs.Protocol
import StaticHttp.Proofs.Confinement
import StaticHttp.Proofs.Queue.Threads
import StaticHttp.Proofs.Queue.Rank
import StaticHttp.Proofs.Pool.Crew
import StaticHttp.Proofs.Pool.Books
import StaticHttp.Proofs.Pool.Owner
import StaticHttp.Proofs.Pool.Run
import StaticHttp.Proofs.Pool.Progress
import StaticHttp.Proofs.Pool.Outcome
import StaticHttp.Proofs.Server.Report
import StaticHttp.Proofs.Server.Signal
import StaticHttp.Proofs.Server.Progress
import StaticHttp.Proofs.Accounts
import StaticHttp.Proofs.Pool.Drain
import StaticHttp.Proofs.Server.Drain
import StaticHttp.Proofs.Queue.Ownership
import StaticHttp.Proofs.Http.Draining
import StaticHttp.Proofs.Target
import StaticHttp.Proofs.NotFound
import StaticHttp.Proofs.Http.RequestLine
import StaticHttp.Proofs.Http.Reading
import StaticHttp.Proofs.Interruptions
import StaticHttp.Proofs.Http.Classification
import StaticHttp.Proofs.Http.Decoding
import StaticHttp.Proofs.Normalisation
import StaticHttp.Proofs.Metrics.History
import StaticHttp.Proofs.Metrics.Interleaving
import StaticHttp.Proofs.Metrics.Statistics
import StaticHttp.Proofs.Queue.Refinement
import StaticHttp.Proofs.Pool.Inheritance
import StaticHttp.Proofs.Pool.Hiring
