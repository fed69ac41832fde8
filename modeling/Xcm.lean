import Xcm.Memory
import Xcm.Ctl.Proto
import Xcm.Ctl.Handlers
import Xcm.Ctl.State
import Xcm.Ctl.Step
import Xcm.Ctl.Process
import Xcm.Ctl.Spec
import Xcm.Ctl.Invariant
import Xcm.Ctl.Descriptors
import Xcm.Ctl.Termination
import Xcm.Ctl.HandlerSpec
import Xcm.Ctl.Exchange
import Xcm.Ctl.Discipline
import Xcm.Ctl.Containment
import Xcm.Ctl.Teardown
import Xcm.Ctl.Secrecy
import Xcm.Pong.Stream
import Xcm.Pong.Framing
import Xcm.Pong.Server
import Xcm.Pong.Client
import Xcm.Pong.Session
import Xcm.Pong.Latency
import Xcm.Pong.Main
import Xcm.Pong.Completion
import Xcm.Pong.Oversize
