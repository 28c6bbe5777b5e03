import LogPager.Main
import LogPager.Message.Json
import LogPager.Proofs.Window.Merging
import LogPager.Session.Panel
import LogPager.Proofs.Session.Steps
import LogPager.Proofs.Session.Runs
import LogPager.Proofs.Session.Requests
import LogPager.Proofs.Window.Tailing
import LogPager.Proofs.Session.Anchors
import LogPager.Proofs.Session.LiveEnd
import LogPager.Proofs.Source.CompleteLines
import LogPager.Proofs.Source.LineMaps
import LogPager.Proofs.Source.DecodedLines
import LogPager.Proofs.Source.Serving
import LogPager.Proofs.Source.Rereading
import LogPager.Proofs.Source.Intervals
import LogPager.Proofs.Window.Intervals
import LogPager.Proofs.Session.Faithful
import LogPager.Proofs.Reader.Events
import LogPager.Proofs.Reader.Faithful
import LogPager.Proofs.Reader.Batches
import LogPager.Proofs.Window.Movements
import LogPager.Proofs.Session.Movements
import LogPager.Proofs.Session.Versions
import LogPager.Proofs.Session.Bounds
import LogPager.Proofs.Window.Editing
import LogPager.Proofs.Session.Gaps
import LogPager.Proofs.Window.Operations
import LogPager.Proofs.Window.Overlaps
import LogPager.Proofs.Session.Commuting
import LogPager.Proofs.Session.Saturation
import LogPager.Proofs.Request.Releases
import LogPager.Proofs.Source.Histories
import LogPager.Proofs.Session.Paging
import LogPager.Proofs.Session.Filling
import LogPager.Proofs.Reader.Rounds
import LogPager.Proofs.Window.Snapshots
import LogPager.Proofs.CommandLine.Launching
import LogPager.Proofs.Session.Refetching
import LogPager.Proofs.Session.Subscriptions
import LogPager.Proofs.Window.Shifting
import LogPager.Proofs.Session.Panels
import LogPager.Proofs.Json.Reading
import LogPager.Proofs.Message.RoundTrip
import LogPager.Proofs.Session.Settling
import LogPager.Proofs.CommandLine.Following
import LogPager.Proofs.Record.WrittenPairs
import LogPager.Proofs.Record.Members
import LogPager.Proofs.Record.PlainLines
import LogPager.Proofs.Record.SingleLines
import LogPager.Proofs.Source.LineStarts
import LogPager.Proofs.Window.GivingWay
import LogPager.Proofs.Session.LiveWindows
import LogPager.Proofs.Window.Coalescing
import LogPager.Proofs.Session.BlockCounts
import LogPager.Proofs.Window.Reading
