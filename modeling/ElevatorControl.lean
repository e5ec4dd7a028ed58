import ElevatorControl.Loop.Ride
import ElevatorControl.Loop.Callers
import ElevatorControl.Loop.Doors
import ElevatorControl.Scheduler.Obligations
import ElevatorControl.Scheduler.Acknowledged
import ElevatorControl.Wire.Bounds
import ElevatorControl.Network.Routing
import ElevatorControl.Network.Overrun
import ElevatorControl.Network.Assistance
import ElevatorControl.Network.InitSender
import ElevatorControl.ConcurrentQueue
import ElevatorControl.Exercises.ForwardRecovery
import ElevatorControl.Loop.Drain
import ElevatorControl.Scheduler.Failures
import ElevatorControl.Scheduler.Deadlines
import ElevatorControl.Scheduler.Priority
import ElevatorControl.Requests.Waiting
import ElevatorControl.Wire.Consumption
import ElevatorControl.HeartBeat
import ElevatorControl.Requests.Cleaning
import ElevatorControl.Requests.Notification
import ElevatorControl.Network.Address
import ElevatorControl.Loop.Reports
import ElevatorControl.Network.OwnChanges
import ElevatorControl.HeartBeatManager
import ElevatorControl.Supervision
import ElevatorControl.Channels
import ElevatorControl.Network.Alive
import ElevatorControl.Loop.DoorTimes
import ElevatorControl.Exercises.ProcessPair
import ElevatorControl.Network.Accepted
import ElevatorControl.Wire.Relay
import ElevatorControl.Network.Refinement
