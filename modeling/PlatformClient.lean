import PlatformClient.Client
import PlatformClient.Json.Grammar
import PlatformClient.Proofs.Envelope
import PlatformClient.Proofs.Layers
import PlatformClient.Transport.Exchange
import PlatformClient.Proofs.BodyBound
import PlatformClient.Proofs.Spelling
import PlatformClient.Proofs.Truncation
import PlatformClient.Proofs.Tracing
import PlatformClient.Proofs.Encoding
import PlatformClient.Proofs.Leniency
import PlatformClient.Proofs.PerCall
import PlatformClient.Proofs.TextReading
import PlatformClient.Proofs.Confidentiality
import PlatformClient.Proofs.Front
import PlatformClient.Proofs.FaultPath
import PlatformClient.Proofs.Replacement
import PlatformClient.Proofs.Received
import PlatformClient.Proofs.Query
import PlatformClient.Proofs.RoundTrip
import PlatformClient.Proofs.Building
